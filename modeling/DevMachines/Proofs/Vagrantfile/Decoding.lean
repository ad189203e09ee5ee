import DevMachines.Proofs.Vagrantfile.Pieces

/-!
# Reading a Vagrantfile back

A Vagrantfile loses nothing of the profiles that it declares: `decode` reads them back from its
text.

## Why a decoder stays in step

The text has no counts, and a field may hold anything, a copy of a whole rendered line included.
Two things keep a reader in step.  A literal ends at the first double quote that no backslash
precedes, and the escaping puts a backslash before every double quote of the field; so a field is
cut off exactly, whatever it holds (`readQuoted_escape`).  And between two literals the text is one
of few that are told apart by a fixed character: after `.vm.` comes a `p` or an `s`, and the line
that ends a block has another third character than those inside of it.

The name of a profile also stands unquoted in every line of its block.  By then it has been read
from the literal in the first line, so it is known and only skipped.

## Reading lists

Steps, folders and blocks come without a number, so each kind is read as long as there is one:
`readAll` stops at the first place where none can be read, and `readAll_flatMap` says that it reads
exactly what was written if none can be read from what follows.
-/

namespace DevMachines
namespace Vagrantfile

/-! ## Fixed texts -/

/-- Skips a text. -/
def expect (text : String) (cs : List Char) : Option (List Char) := text.toList.isPrefixOf? cs

@[simp] theorem expect_append (text : String) (rest : List Char) :
    expect text (text.toList ++ rest) = some rest := by
  simp [expect]

/-- A text is not found where another character stands in one of its places. -/
theorem expect_eq_none {text : String} (before after : List Char) {c d : Char} (h : c ≠ d)
    (htext : text.toList = before ++ c :: after) (rest : List Char) :
    expect text (before ++ d :: rest) = none := by
  cases hskip : expect text (before ++ d :: rest) with
  | none => rfl
  | some found =>
    rw [expect, List.isPrefixOf?_eq_some_iff_append_eq, htext, List.append_assoc] at hskip
    have hcons := List.append_cancel_left hskip
    rw [List.cons_append, List.cons.injEq] at hcons
    exact absurd hcons.1 h

/-! ## Literals -/

/-- Reads the rest of a literal whose opening quote has been read. -/
def readQuoted : List Char → Option (List Char × List Char)
  | [] => none
  | '"' :: rest => some ([], rest)
  | '\\' :: c :: rest => (readQuoted rest).map fun (cs, rest) => (c :: cs, rest)
  | c :: rest => (readQuoted rest).map fun (cs, rest) => (c :: cs, rest)

theorem readQuoted_backslash (c : Char) (rest : List Char) :
    readQuoted ('\\' :: c :: rest) = (readQuoted rest).map fun (cs, rest) => (c :: cs, rest) := by
  rw [readQuoted]

theorem readQuoted_plain {c : Char} (h : ¬ (c = '\\' ∨ c = '"')) (rest : List Char) :
    readQuoted (c :: rest) = (readQuoted rest).map fun (cs, rest) => (c :: cs, rest) := by
  rw [not_or] at h
  rw [readQuoted]
  · exact h.2
  · rintro d tail rfl
    exact absurd rfl h.1

/-- **A field is cut off exactly**, whatever it holds and whatever follows. -/
theorem readQuoted_escape (cs rest : List Char) :
    readQuoted (escape cs ++ '"' :: rest) = some (cs, rest) := by
  induction cs with
  | nil => rfl
  | cons c cs ih =>
    rcases escape_cons_cases c cs with ⟨-, h⟩ | ⟨tail, -, -, h⟩ | ⟨hspecial, -, h⟩
    · rw [h, List.cons_append, List.cons_append, readQuoted_backslash, ih]
      rfl
    · rw [h, List.cons_append, List.cons_append, readQuoted_backslash, ih]
      rfl
    · rw [h, List.cons_append, readQuoted_plain hspecial, ih]
      rfl

/-- Reads a literal. -/
def readLiteral : List Char → Option (String × List Char)
  | '"' :: cs => (readQuoted cs).map fun (text, rest) => (String.ofList text, rest)
  | _ => none

@[simp] theorem readLiteral_append (text : String) (rest : List Char) :
    readLiteral ((literal text).toList ++ rest) = some (text, rest) := by
  rw [toList_literal, List.cons_append, List.append_assoc, List.singleton_append, readLiteral,
    readQuoted_escape]
  simp

/-- Reads a truth value. -/
def readTruthLiteral (cs : List Char) : Option (Bool × List Char) :=
  match expect (truthLiteral true) cs with
  | some rest => some (true, rest)
  | none => (expect (truthLiteral false) cs).map fun rest => (false, rest)

@[simp] theorem readTruthLiteral_append (b : Bool) (rest : List Char) :
    readTruthLiteral ((truthLiteral b).toList ++ rest) = some (b, rest) := by
  cases b with
  | true => rw [readTruthLiteral, expect_append]
  | false =>
    have hother : expect (truthLiteral true) ((truthLiteral false).toList ++ rest) = none :=
      expect_eq_none [] ['r', 'u', 'e'] (by decide) rfl _
    rw [readTruthLiteral, hother, expect_append]
    rfl

/-! ## As many as there are -/

/-- Reads as many items as there are, given enough fuel for their number. -/
def readMany {α : Type} (read : List Char → Option (α × List Char)) :
    Nat → List Char → List α × List Char
  | 0, cs => ([], cs)
  | fuel + 1, cs =>
      match read cs with
      | none => ([], cs)
      | some (x, rest) =>
          let (xs, after) := readMany read fuel rest
          (x :: xs, after)

/-- Reads as many items as there are. -/
def readAll {α : Type} (read : List Char → Option (α × List Char)) (cs : List Char) :
    List α × List Char :=
  readMany read cs.length cs

section Lists

variable {α β : Type} {read : List Char → Option (α × List Char)} {write : β → List Char}
  {value : β → α} {tail : List Char}

theorem readMany_flatMap {xs : List β}
    (hread : ∀ x ∈ xs, ∀ rest, read (write x ++ rest) = some (value x, rest))
    (htail : read tail = none) {fuel : Nat} (hfuel : xs.length ≤ fuel) :
    readMany read fuel (xs.flatMap write ++ tail) = (xs.map value, tail) := by
  induction xs generalizing fuel with
  | nil =>
    cases fuel with
    | zero => rfl
    | succ fuel => rw [List.flatMap_nil, List.nil_append, readMany, htail, List.map_nil]
  | cons x xs ih =>
    rw [List.forall_mem_cons] at hread
    cases fuel with
    | zero => simp at hfuel
    | succ fuel =>
      have hrest := ih hread.2 (Nat.le_of_succ_le_succ hfuel)
      rw [List.flatMap_cons, List.append_assoc, readMany, hread.1]
      simp only [hrest, List.map_cons]

/-- If nothing can be read from what follows, exactly what was written is read. -/
theorem readAll_flatMap {xs : List β}
    (hread : ∀ x ∈ xs, ∀ rest, read (write x ++ rest) = some (value x, rest))
    (hwrite : ∀ x, write x ≠ []) (htail : read tail = none) :
    readAll read (xs.flatMap write ++ tail) = (xs.map value, tail) := by
  refine readMany_flatMap hread htail ?_
  -- every item takes up at least one character
  have hlength : ∀ ys : List β, ys.length ≤ (ys.flatMap write).length := by
    intro ys
    induction ys with
    | nil => exact Nat.zero_le _
    | cons x ys ih =>
      have hx := List.length_pos_of_ne_nil (hwrite x)
      rw [List.flatMap_cons, List.length_append, List.length_cons]
      omega
  have hxs := hlength xs
  rw [List.length_append]
  omega

theorem readAll_append {write : α → List Char}
    (hread : ∀ x rest, read (write x ++ rest) = some (x, rest))
    (hwrite : ∀ x, write x ≠ []) (htail : read tail = none) (xs : List α) :
    readAll read (xs.flatMap write ++ tail) = (xs, tail) := by
  have hall := @readAll_flatMap α α read write id tail xs (fun x _ => hread x) hwrite htail
  rwa [List.map_id] at hall

end Lists

/-! ## Lines and blocks -/

/-- Reads the name of a kind of step. -/
def readKindName (name : String) : Option StepKind :=
  if name = StepKind.shell.name then some .shell else none

@[simp] theorem readKindName_name (k : StepKind) : readKindName k.name = some k := by
  cases k
  rfl

/-- Reads the line of a step. -/
def readStep (machine : String) (cs : List Char) : Option (Step × List Char) := do
  let cs ← expect (stepStart machine) cs
  let (name, cs) ← readLiteral cs
  let cs ← expect ", type: " cs
  let (kindName, cs) ← readLiteral cs
  let kind ← readKindName kindName
  let cs ← expect ", path: " cs
  let (path, cs) ← readLiteral cs
  let cs ← expect ", privileged: " cs
  let (privileged, cs) ← readTruthLiteral cs
  let cs ← expect "\n" cs
  pure ({ name, kind, path, privileged }, cs)

/-- Reads the line of a shared folder. -/
def readFolder (machine : String) (cs : List Char) : Option (SharedFolder × List Char) := do
  let cs ← expect (folderStart machine) cs
  let (hostPath, cs) ← readLiteral cs
  let cs ← expect ", " cs
  let (guestPath, cs) ← readLiteral cs
  let cs ← expect "\n" cs
  pure ({ hostPath, guestPath }, cs)

/-- Reads the block of a profile. -/
def readBlock (cs : List Char) : Option (Profile × List Char) := do
  let cs ← expect "  config.vm.define " cs
  let (name, cs) ← readLiteral cs
  let cs ← expect (boxStart name) cs
  let (box, cs) ← readLiteral cs
  let cs ← expect "\n" cs
  let (steps, cs) := readAll (readStep name) cs
  let (folders, cs) := readAll (readFolder name) cs
  let cs ← expect "  end\n" cs
  pure ({ name, box, steps, folders }, cs)

/-- Reads a block after an empty line. -/
def readNextBlock (cs : List Char) : Option (Profile × List Char) := do
  let cs ← expect "\n" cs
  readBlock cs

/-- Reads blocks. -/
def readBlocks (cs : List Char) : List Profile × List Char :=
  match readBlock cs with
  | none => ([], cs)
  | some (p, cs) =>
      let (ps, cs) := readAll readNextBlock cs
      (p :: ps, cs)

/-- Reads a Vagrantfile. -/
def decode (version text : String) : Option ProfileSet := do
  let cs ← expect (openingText version) text.toList
  let (profiles, cs) := readBlocks cs
  let cs ← expect "end\n" cs
  if cs.isEmpty then pure { profiles } else none

/-! ## What was written is read -/

theorem readStep_append (machine : String) (s : Step) (rest : List Char) :
    readStep machine (chars (stepPieces machine s) ++ rest) = some (s, rest) := by
  simp only [readStep, stepPieces, chars_cons, chars_nil, Piece.chars_code,
    Piece.chars_quoted, List.append_assoc, List.nil_append, expect_append, readLiteral_append,
    readKindName_name, readTruthLiteral_append, Option.bind_eq_bind, Option.bind_some]
  rfl

theorem readFolder_append (machine : String) (f : SharedFolder) (rest : List Char) :
    readFolder machine (chars (folderPieces machine f) ++ rest) = some (f, rest) := by
  simp only [readFolder, folderPieces, chars_cons, chars_nil, Piece.chars_code,
    Piece.chars_quoted, List.append_assoc, List.nil_append, expect_append, readLiteral_append,
    Option.bind_eq_bind, Option.bind_some]
  rfl

/-! ## Where a list ends

None of these texts begins an item of the list that it follows. -/

/-- The lines of steps and of folders differ right after the name of the machine. -/
theorem readStep_folder (machine : String) (f : SharedFolder) (rest : List Char) :
    readStep machine (chars (folderPieces machine f) ++ rest) = none := by
  have hfolder : chars (folderPieces machine f) ++ rest =
      ("    " ++ machine ++ ".vm.").toList ++
        's' :: ("ynced_folder ".toList ++ ((literal f.hostPath).toList ++
          (", ".toList ++ ((literal f.guestPath).toList ++ '\n' :: rest)))) := by
    simp [folderPieces, folderStart]
  have hskip : expect (stepStart machine) (chars (folderPieces machine f) ++ rest) = none := by
    rw [hfolder]
    refine expect_eq_none _ "rovision ".toList (c := 'p') (by decide) ?_ _
    simp [stepStart]
  rw [readStep, hskip]
  rfl

/-- The line that ends a block differs from those inside of it in its third character. -/
theorem expect_end_eq_none {text : String} {after : List Char}
    (htext : text.toList = [' ', ' '] ++ ' ' :: after) (rest : List Char) :
    expect text ("  end\n".toList ++ rest) = none :=
  expect_eq_none [' ', ' '] after (d := 'e') (by decide) htext _

theorem readStep_end (machine : String) (rest : List Char) :
    readStep machine ("  end\n".toList ++ rest) = none := by
  have hstart : (stepStart machine).toList =
      [' ', ' '] ++ ' ' :: (' ' :: (machine.toList ++ ".vm.provision ".toList)) := by
    simp [stepStart]
  rw [readStep, expect_end_eq_none hstart]
  rfl

theorem readFolder_end (machine : String) (rest : List Char) :
    readFolder machine ("  end\n".toList ++ rest) = none := by
  have hstart : (folderStart machine).toList =
      [' ', ' '] ++ ' ' :: (' ' :: (machine.toList ++ ".vm.synced_folder ".toList)) := by
    simp [folderStart]
  rw [readFolder, expect_end_eq_none hstart]
  rfl

theorem readNextBlock_end : readNextBlock "end\n".toList = none := rfl

/-! ## Blocks -/

theorem chars_flatMap_eq {α : Type} (f : α → List Piece) (xs : List α) :
    chars (xs.flatMap f) = xs.flatMap fun x => chars (f x) :=
  List.flatMap_assoc

theorem chars_stepPieces_ne_nil (machine : String) (s : Step) :
    chars (stepPieces machine s) ≠ [] := by
  simp [chars_stepPieces]

theorem chars_folderPieces_ne_nil (machine : String) (f : SharedFolder) :
    chars (folderPieces machine f) ≠ [] := by
  simp [chars_folderPieces]

/-- All folders of a block are read. -/
theorem readAll_folders (machine : String) (folders : List SharedFolder) (rest : List Char) :
    readAll (readFolder machine)
        (chars (folders.flatMap (folderPieces machine)) ++ ("  end\n".toList ++ rest)) =
      (folders, "  end\n".toList ++ rest) := by
  rw [chars_flatMap_eq]
  exact readAll_append (readFolder_append machine) (chars_folderPieces_ne_nil machine)
    (readFolder_end machine rest) folders

/-- All steps of a block are read, and none of the folders is taken for a step. -/
theorem readAll_steps (machine : String) (steps : List Step) (folders : List SharedFolder)
    (rest : List Char) :
    readAll (readStep machine)
        (chars (steps.flatMap (stepPieces machine)) ++
          (chars (folders.flatMap (folderPieces machine)) ++ ("  end\n".toList ++ rest))) =
      (steps, chars (folders.flatMap (folderPieces machine)) ++ ("  end\n".toList ++ rest)) := by
  have htail : readStep machine
      (chars (folders.flatMap (folderPieces machine)) ++ ("  end\n".toList ++ rest)) = none := by
    cases folders with
    | nil => exact readStep_end machine rest
    | cons f fs =>
      rw [List.flatMap_cons, chars_append, List.append_assoc]
      exact readStep_folder machine f _
  rw [chars_flatMap_eq]
  exact readAll_append (readStep_append machine) (chars_stepPieces_ne_nil machine) htail steps

theorem readBlock_append (p : Profile) (rest : List Char) :
    readBlock (chars (blockPieces p) ++ rest) = some (p, rest) := by
  simp only [readBlock, blockPieces, chars_append, chars_cons, chars_nil, Piece.chars_code,
    Piece.chars_quoted, List.append_assoc, List.nil_append, expect_append, readLiteral_append,
    readAll_steps, readAll_folders, Option.bind_eq_bind, Option.bind_some]
  rfl

theorem readNextBlock_append (p : Profile) (rest : List Char) :
    readNextBlock ('\n' :: chars (blockPieces p) ++ rest) = some (p, rest) := by
  have hskip : expect "\n" ('\n' :: chars (blockPieces p) ++ rest) =
      some (chars (blockPieces p) ++ rest) := expect_append "\n" _
  rw [readNextBlock, hskip, Option.bind_eq_bind, Option.bind_some, readBlock_append]

/-- After the first block, every block comes with the empty line before it. -/
theorem chars_blocksPieces_cons (p : Profile) (ps : List Profile) :
    chars (blocksPieces (p :: ps)) =
      chars (blockPieces p) ++ ps.flatMap fun q => '\n' :: chars (blockPieces q) := by
  induction ps generalizing p with
  | nil => simp
  | cons q qs ih =>
    rw [blocksPieces_cons_cons, chars_append, chars_cons, ih q]
    rfl

theorem readBlocks_append (profiles : List Profile) :
    readBlocks (chars (blocksPieces profiles) ++ "end\n".toList) =
      (profiles, "end\n".toList) := by
  cases profiles with
  | nil => rfl
  | cons p ps =>
    have hrest : readAll readNextBlock
        ((ps.flatMap fun q => '\n' :: chars (blockPieces q)) ++ "end\n".toList) =
        (ps, "end\n".toList) :=
      readAll_append readNextBlock_append (fun q => List.cons_ne_nil _ _) readNextBlock_end ps
    rw [chars_blocksPieces_cons, List.append_assoc, readBlocks, readBlock_append]
    simp only [hrest]

/-- A Vagrantfile is its opening, its blocks, and the line that ends it. -/
theorem toList_render (version : String) (s : ProfileSet) :
    (render version s).toList =
      (openingText version).toList ++ (chars (blocksPieces s.profiles) ++ "end\n".toList) := by
  rw [← chars_pieces, pieces, chars_cons, chars_append, Piece.chars_code, chars_cons,
    Piece.chars_code, chars_nil, List.append_nil]

/-- The decoder returns what was rendered. -/
theorem decode_render (version : String) (s : ProfileSet) :
    decode version (render version s) = some s := by
  have hend : expect "end\n" "end\n".toList = some [] := rfl
  rw [decode, toList_render, expect_append, Option.bind_eq_bind, Option.bind_some,
    readBlocks_append]
  simp only [hend, Option.bind_some]
  rfl

/-- **A Vagrantfile loses nothing.**  One decoder reads every set of profiles back from its
Vagrantfile, so different profiles never have the same one.  Nothing is asked of the fields: they
may imitate anything that the format itself writes. -/
theorem render_lossless (version : String) :
    (∀ s : ProfileSet, decode version (render version s) = some s) ∧
      ∀ s t : ProfileSet, render version s = render version t → s = t := by
  refine ⟨decode_render version, fun s t h => ?_⟩
  have hdecoded := congrArg (decode version) h
  rw [decode_render, decode_render] at hdecoded
  exact Option.some.inj hdecoded

end Vagrantfile
end DevMachines
