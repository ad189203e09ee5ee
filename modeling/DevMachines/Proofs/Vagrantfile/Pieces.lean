import DevMachines.Profile.Vagrantfile
import Mathlib.Data.List.Basic

/-!
# A Vagrantfile as a row of pieces

`Vagrantfile.render` puts lines together.  What is to be proved about it is about places inside of
those lines: where a literal begins, which text it holds, and what follows it.  So this file reads
the same text as a row of pieces, each either Ruby as it stands or one quoted field.

* `chars_pieces`: the pieces of a Vagrantfile, written one after another, are the Vagrantfile.
* `quotedTexts_pieces`: its quoted pieces are the fields of the profiles, in order.

Every line carries the line feed that ends it, so pieces can be put together without separators.

## The escaping

A literal is escaped in one pass over its characters.  `escape_eq_replacements` says that this is
what three replacements over the whole text would do, one after another: first the backslashes, then
the double quotes, then the beginnings of interpolations.
-/

namespace DevMachines
namespace Vagrantfile

/-! ## The escaping, character by character -/

@[simp] theorem escape_nil : escape [] = [] := rfl

/-- Backslashes and double quotes always get a backslash. -/
theorem escape_cons_special {c : Char} (h : c = '\\' ∨ c = '"') (cs : List Char) :
    escape (c :: cs) = '\\' :: c :: escape cs := by
  rw [escape, if_pos h]

/-- A sharp gets a backslash before a brace. -/
theorem escape_sharp_brace (cs : List Char) :
    escape ('#' :: '\x7b' :: cs) = '\\' :: '#' :: escape ('\x7b' :: cs) := by
  rw [escape, if_neg (by decide), if_pos ⟨rfl, rfl⟩]

/-- Every other character is written as it is. -/
theorem escape_cons_plain {c : Char} {cs : List Char} (h : ¬ (c = '\\' ∨ c = '"'))
    (h' : ¬ (c = '#' ∧ cs.head? = some '\x7b')) : escape (c :: cs) = c :: escape cs := by
  rw [escape, if_neg h, if_neg h']

/-- What the escaping does with a character: one of three things. -/
theorem escape_cons_cases (c : Char) (cs : List Char) :
    ((c = '\\' ∨ c = '"') ∧ escape (c :: cs) = '\\' :: c :: escape cs) ∨
    (∃ tail, c = '#' ∧ cs = '\x7b' :: tail ∧ escape (c :: cs) = '\\' :: c :: escape cs) ∨
    (¬ (c = '\\' ∨ c = '"') ∧ ¬ (c = '#' ∧ cs.head? = some '\x7b') ∧
      escape (c :: cs) = c :: escape cs) := by
  by_cases hspecial : c = '\\' ∨ c = '"'
  · exact Or.inl ⟨hspecial, escape_cons_special hspecial cs⟩
  by_cases hbrace : c = '#' ∧ cs.head? = some '\x7b'
  · obtain ⟨rfl, hhead⟩ := hbrace
    obtain ⟨tail, rfl⟩ := List.head?_eq_some_iff.mp hhead
    exact Or.inr (Or.inl ⟨tail, rfl, rfl, escape_sharp_brace tail⟩)
  · exact Or.inr (Or.inr ⟨hspecial, hbrace, escape_cons_plain hspecial hbrace⟩)

/-! ## The escaping as three replacements -/

/-- Writes every occurrence of a character with a backslash before it. -/
def markChar (c : Char) (cs : List Char) : List Char :=
  cs.flatMap fun d => if d = c then ['\\', d] else [d]

/-- Writes every sharp that a brace follows with a backslash before it. -/
def markInterpolations : List Char → List Char
  | '#' :: '\x7b' :: rest => '\\' :: '#' :: '\x7b' :: markInterpolations rest
  | c :: rest => c :: markInterpolations rest
  | [] => []

@[simp] theorem markChar_nil (c : Char) : markChar c [] = [] := rfl

theorem markChar_cons_self (c : Char) (cs : List Char) :
    markChar c (c :: cs) = '\\' :: c :: markChar c cs := by
  simp [markChar]

theorem markChar_cons_of_ne {c d : Char} (h : d ≠ c) (cs : List Char) :
    markChar c (d :: cs) = d :: markChar c cs := by
  simp [markChar, h]

/-- Unless a sharp meets a brace, a character stays as it is. -/
theorem markInterpolations_cons {c : Char} {cs : List Char}
    (h : ¬ (c = '#' ∧ cs.head? = some '\x7b')) :
    markInterpolations (c :: cs) = c :: markInterpolations cs := by
  rw [markInterpolations]
  rintro rest rfl rfl
  exact h ⟨rfl, rfl⟩

/-- Marking a character does not bring a brace to the front. -/
theorem head?_markChar_eq_brace {c : Char} {cs : List Char}
    (h : (markChar c cs).head? = some '\x7b') : cs.head? = some '\x7b' := by
  cases cs with
  | nil => simp at h
  | cons d rest =>
    by_cases hd : d = c
    · rw [hd, markChar_cons_self] at h
      simp at h
    · rw [markChar_cons_of_ne hd] at h
      exact h

/-- **One pass does what three replacements do.**  The order matters: a backslash that a later
replacement adds is not doubled. -/
theorem escape_eq_replacements (cs : List Char) :
    escape cs = markInterpolations (markChar '"' (markChar '\\' cs)) := by
  induction cs with
  | nil => rfl
  | cons c cs ih =>
    rcases escape_cons_cases c cs with ⟨rfl | rfl, h⟩ | ⟨tail, rfl, rfl, h⟩ | ⟨hspecial, hbrace, h⟩
    · rw [h, markChar_cons_self, markChar_cons_of_ne (by decide), markChar_cons_of_ne (by decide),
        markInterpolations_cons (by simp), markInterpolations_cons (by simp), ih]
    · rw [h, markChar_cons_of_ne (by decide), markChar_cons_self,
        markInterpolations_cons (by simp), markInterpolations_cons (by simp), ih]
    · rw [markChar_cons_of_ne (by decide), markChar_cons_of_ne (by decide)] at ih
      rw [h, ih, markChar_cons_of_ne (by decide), markChar_cons_of_ne (by decide),
        markChar_cons_of_ne (by decide), markChar_cons_of_ne (by decide),
        markInterpolations_cons (by simp), markInterpolations]
    · obtain ⟨hslash, hquote⟩ := not_or.mp hspecial
      have hmarked : ¬ (c = '#' ∧ (markChar '"' (markChar '\\' cs)).head? = some '\x7b') :=
        fun ⟨hc, hh⟩ => hbrace ⟨hc, head?_markChar_eq_brace (head?_markChar_eq_brace hh)⟩
      rw [h, markChar_cons_of_ne hslash, markChar_cons_of_ne hquote,
        markInterpolations_cons hmarked, ih]

/-! ## Pieces -/

/-- A piece of a Vagrantfile: Ruby as it stands, or a field between double quotes. -/
inductive Piece where
  | code (text : String)
  | quoted (text : String)
  deriving DecidableEq, Repr

/-- The characters of a piece. -/
def Piece.chars : Piece → List Char
  | .code text => text.toList
  | .quoted text => (literal text).toList

/-- The text between the quotes of a piece, if it has quotes. -/
def Piece.quotedText? : Piece → Option String
  | .code _ => none
  | .quoted text => some text

@[simp] theorem Piece.chars_code (text : String) : (Piece.code text).chars = text.toList := rfl

@[simp] theorem Piece.chars_quoted (text : String) :
    (Piece.quoted text).chars = (literal text).toList := rfl

/-- A literal is the escaped text between double quotes. -/
theorem toList_literal (text : String) :
    (literal text).toList = '"' :: (escape text.toList ++ ['"']) := by
  rw [literal, String.toList_ofList]

/-- The characters of pieces, one after another. -/
def chars (pieces : List Piece) : List Char := pieces.flatMap Piece.chars

@[simp] theorem chars_nil : chars [] = [] := rfl

@[simp] theorem chars_cons (p : Piece) (ps : List Piece) : chars (p :: ps) = p.chars ++ chars ps :=
  rfl

@[simp] theorem chars_append (ps qs : List Piece) : chars (ps ++ qs) = chars ps ++ chars qs :=
  List.flatMap_append

/-- The quoted texts of pieces, in order. -/
def quotedTexts (pieces : List Piece) : List String := pieces.filterMap Piece.quotedText?

@[simp] theorem quotedTexts_append (ps qs : List Piece) :
    quotedTexts (ps ++ qs) = quotedTexts ps ++ quotedTexts qs :=
  List.filterMap_append

theorem quotedTexts_code (text : String) (ps : List Piece) :
    quotedTexts (.code text :: ps) = quotedTexts ps := rfl

/-- How the line of a step begins. -/
def stepStart (machine : String) : String := "    " ++ machine ++ ".vm.provision "

/-- How the line of a shared folder begins. -/
def folderStart (machine : String) : String := "    " ++ machine ++ ".vm.synced_folder "

/-- How the block of a profile goes on after the name in its first line. -/
def boxStart (machine : String) : String :=
  " do |" ++ machine ++ "|\n    " ++ machine ++ ".vm.box = "

/-- The pieces of the line of a provisioning step. -/
def stepPieces (machine : String) (s : Step) : List Piece := [
  .code (stepStart machine), .quoted s.name,
  .code ", type: ", .quoted s.kind.name,
  .code ", path: ", .quoted s.path,
  .code ", privileged: ", .code (truthLiteral s.privileged), .code "\n"]

/-- The pieces of the line of a shared folder. -/
def folderPieces (machine : String) (f : SharedFolder) : List Piece := [
  .code (folderStart machine), .quoted f.hostPath,
  .code ", ", .quoted f.guestPath, .code "\n"]

/-- The pieces of the block of a profile. -/
def blockPieces (p : Profile) : List Piece :=
  [.code "  config.vm.define ", .quoted p.name, .code (boxStart p.name), .quoted p.box,
    .code "\n"] ++
  p.steps.flatMap (stepPieces p.name) ++ p.folders.flatMap (folderPieces p.name) ++
  [.code "  end\n"]

/-- The pieces of blocks, with an empty line between two blocks. -/
def blocksPieces (profiles : List Profile) : List Piece :=
  List.intercalate [.code "\n"] (profiles.map blockPieces)

@[simp] theorem blocksPieces_nil : blocksPieces [] = [] := rfl

@[simp] theorem blocksPieces_singleton (p : Profile) : blocksPieces [p] = blockPieces p :=
  List.intercalate_singleton

theorem blocksPieces_cons_cons (p q : Profile) (ps : List Profile) :
    blocksPieces (p :: q :: ps) = blockPieces p ++ .code "\n" :: blocksPieces (q :: ps) := by
  simp [blocksPieces]

/-- The text before the first block. -/
def openingText (version : String) : String := "\n".intercalate (opening version) ++ "\n"

/-- The pieces of a Vagrantfile. -/
def pieces (version : String) (s : ProfileSet) : List Piece :=
  .code (openingText version) :: (blocksPieces s.profiles ++ [.code "end\n"])

/-! ## The pieces are the Vagrantfile -/

/-- Lines with a line feed after each, as they stand in a text. -/
def charsOfLines (lines : List String) : List Char := lines.flatMap fun l => l.toList ++ ['\n']

@[simp] theorem charsOfLines_nil : charsOfLines [] = [] := rfl

@[simp] theorem charsOfLines_cons (l : String) (ls : List String) :
    charsOfLines (l :: ls) = l.toList ++ '\n' :: charsOfLines ls := by
  simp [charsOfLines]

@[simp] theorem charsOfLines_append (ls ms : List String) :
    charsOfLines (ls ++ ms) = charsOfLines ls ++ charsOfLines ms :=
  List.flatMap_append

/-- Joining lines and ending the last one is ending every line. -/
theorem toList_intercalate_newline {lines : List String} (h : lines ≠ []) :
    ("\n".intercalate lines ++ "\n").toList = charsOfLines lines := by
  induction lines with
  | nil => exact absurd rfl h
  | cons l ls ih =>
    cases ls with
    | nil => simp
    | cons m ms =>
      have ih := ih (List.cons_ne_nil m ms)
      rw [String.intercalate_cons_cons, String.append_assoc, String.toList_append, ih]
      simp

theorem chars_stepPieces (machine : String) (s : Step) :
    chars (stepPieces machine s) = (stepLine machine s).toList ++ ['\n'] := by
  simp [stepPieces, stepStart, stepLine]

theorem chars_folderPieces (machine : String) (f : SharedFolder) :
    chars (folderPieces machine f) = (folderLine machine f).toList ++ ['\n'] := by
  simp [folderPieces, folderStart, folderLine]

/-- Pieces made line by line are the lines. -/
theorem chars_flatMap {α : Type} {f : α → List Piece} {line : α → String}
    (h : ∀ x, chars (f x) = (line x).toList ++ ['\n']) (xs : List α) :
    chars (xs.flatMap f) = charsOfLines (xs.map line) := by
  induction xs with
  | nil => rfl
  | cons x xs ih =>
    rw [List.flatMap_cons, chars_append, ih, h, List.map_cons, charsOfLines_cons]
    simp

theorem chars_blockPieces (p : Profile) : chars (blockPieces p) = charsOfLines (block p) := by
  simp only [blockPieces, block, chars_append, charsOfLines_append,
    chars_flatMap (chars_stepPieces p.name), chars_flatMap (chars_folderPieces p.name)]
  simp [boxStart]

theorem chars_blocksPieces (profiles : List Profile) :
    chars (blocksPieces profiles) =
      charsOfLines (List.intercalate [""] (profiles.map block)) := by
  induction profiles with
  | nil => rfl
  | cons p ps ih =>
    cases ps with
    | nil => simp [chars_blockPieces]
    | cons q qs =>
      rw [blocksPieces_cons_cons, chars_append, chars_cons, chars_blockPieces, ih]
      simp

/-- **The pieces of a Vagrantfile are the Vagrantfile.** -/
theorem chars_pieces (version : String) (s : ProfileSet) :
    chars (pieces version s) = (render version s).toList := by
  have hopening : (openingText version).toList = charsOfLines (opening version) :=
    toList_intercalate_newline (List.cons_ne_nil _ _)
  have hlines : opening version ++ List.intercalate [""] (s.profiles.map block) ++ ["end"] ≠ [] :=
    List.append_ne_nil_of_right_ne_nil _ (List.cons_ne_nil _ _)
  rw [render, toList_intercalate_newline hlines, pieces, chars_cons, chars_append,
    chars_blocksPieces, Piece.chars_code, hopening]
  simp

/-! ## The quoted pieces are the fields -/

/-- The texts of a profile that are quoted, in order. -/
def quotedFields (p : Profile) : List String :=
  [p.name, p.box] ++ p.steps.flatMap (fun s => [s.name, s.kind.name, s.path]) ++
    p.folders.flatMap fun f => [f.hostPath, f.guestPath]

/-- What pieces made item by item quote is what each item quotes. -/
theorem quotedTexts_flatMap {α : Type} {f : α → List Piece} {g : α → List String}
    (h : ∀ x, quotedTexts (f x) = g x) (xs : List α) :
    quotedTexts (xs.flatMap f) = xs.flatMap g := by
  induction xs with
  | nil => rfl
  | cons x xs ih => rw [List.flatMap_cons, quotedTexts_append, h, ih, List.flatMap_cons]

theorem quotedTexts_blockPieces (p : Profile) :
    quotedTexts (blockPieces p) = quotedFields p := by
  have hsteps := quotedTexts_flatMap (f := stepPieces p.name)
    (g := fun s => [s.name, s.kind.name, s.path]) (fun _ => rfl) p.steps
  have hfolders := quotedTexts_flatMap (f := folderPieces p.name)
    (g := fun f => [f.hostPath, f.guestPath]) (fun _ => rfl) p.folders
  rw [blockPieces, quotedTexts_append, quotedTexts_append, quotedTexts_append, hsteps, hfolders,
    quotedFields]
  exact List.append_nil _

/-- **What is quoted is each field of each profile, in order, and nothing else.** -/
theorem quotedTexts_pieces (version : String) (s : ProfileSet) :
    quotedTexts (pieces version s) = s.profiles.flatMap quotedFields := by
  have hblocks : ∀ profiles : List Profile,
      quotedTexts (blocksPieces profiles) = profiles.flatMap quotedFields := by
    intro profiles
    induction profiles with
    | nil => rfl
    | cons p ps ih =>
      cases ps with
      | nil => simp [quotedTexts_blockPieces]
      | cons q qs =>
        rw [blocksPieces_cons_cons, quotedTexts_append, quotedTexts_code, ih,
          quotedTexts_blockPieces]
        exact List.flatMap_cons.symm
  rw [pieces, quotedTexts_code, quotedTexts_append, hblocks]
  exact List.append_nil _

end Vagrantfile
end DevMachines
