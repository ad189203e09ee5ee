import DevMachines.Proofs.Session.Declaring
import DevMachines.Proofs.Vagrantfile.Decoding

/-!
# The machines of a Vagrantfile, to a reader who does not know their names

The name of a profile stands in the text between quotes, where it is escaped, and as it is in the
places of a Ruby variable: as the parameter of the block, and before `.vm.` on every line of it.
`decode` knows the name by then and skips it.  Ruby does not: it reads a variable as far as its
characters go, and what it has read must be an identifier.  `readMachines` reads that way.

Main statement: `readMachines_render_iff`, the machines come out with the name of their profile as
the variable on every line exactly if all names are identifiers.  Profiles are accepted with any
name that is not blank, so this is a condition on the names; the profiles that are declared for a
project have it.

## Letters

Which characters beyond ASCII are letters, and which of those are small, differs from one version of
Ruby to the next.  So the alphabet is a parameter, and nothing depends on it but the names
themselves.
-/

namespace DevMachines
namespace Vagrantfile

/-! ## Identifiers -/

/-- The words that Ruby keeps for itself. -/
def keywords : List String :=
  ["__ENCODING__", "__FILE__", "__LINE__", "BEGIN", "END", "alias", "and", "begin", "break", "case",
    "class", "def", "defined?", "do", "else", "elsif", "end", "ensure", "false", "for", "if", "in",
    "module", "next", "nil", "not", "or", "redo", "rescue", "retry", "return", "self", "super",
    "then", "true", "undef", "unless", "until", "when", "while", "yield"]

/-- The letters that names are made of.  The bar and the dot are none. -/
structure Alphabet where
  isSmall : Char → Bool
  isLetter : Char → Bool
  isSmall_of_isLower : ∀ c : Char, c.isLower = true → isSmall c = true
  isLetter_of_isSmall : ∀ c, isSmall c = true → isLetter c = true
  isLetter_bar : isLetter '|' = false
  isLetter_dot : isLetter '.' = false

/-- The letters of ASCII. -/
def Alphabet.ascii : Alphabet where
  isSmall := Char.isLower
  isLetter := Char.isAlpha
  isSmall_of_isLower := fun _ h => h
  isLetter_of_isSmall := fun _ h => Bool.or_eq_true_iff.mpr (Or.inr h)
  isLetter_bar := rfl
  isLetter_dot := rfl

namespace Alphabet

/-- A character inside of an identifier. -/
def isPart (a : Alphabet) (c : Char) : Bool := a.isLetter c || c.isDigit || c == '_'

/-- A local variable: a small letter or an underscore, then letters, digits and underscores, and no
word that Ruby keeps. -/
def IsLocal (a : Alphabet) (name : List Char) : Prop :=
  name.head?.any (fun c => a.isSmall c || c == '_') = true ∧ name.all a.isPart = true ∧
    String.ofList name ∉ keywords

instance (a : Alphabet) (name : List Char) : Decidable (a.IsLocal name) :=
  inferInstanceAs (Decidable (_ ∧ _ ∧ _))

/-- Reads a variable, as far as its characters go. -/
def readLocal (a : Alphabet) (cs : List Char) : Option (List Char × List Char) :=
  let name := cs.takeWhile a.isPart
  if a.IsLocal name then some (name, cs.dropWhile a.isPart) else none

/-- Small letters of ASCII are an identifier in every alphabet. -/
theorem isLocal_of_isLower (a : Alphabet) {name : List Char} (hnil : name ≠ [])
    (hlower : name.all Char.isLower = true) (hkeyword : String.ofList name ∉ keywords) :
    a.IsLocal name := by
  have hsmall : ∀ c ∈ name, a.isSmall c = true := fun c hc =>
    a.isSmall_of_isLower c (List.all_eq_true.mp hlower c hc)
  refine ⟨?_, List.all_eq_true.mpr fun c hc => ?_, hkeyword⟩
  · obtain ⟨c, rest, rfl⟩ := List.exists_cons_of_ne_nil hnil
    rw [List.head?_cons, Option.any_some, hsmall c List.mem_cons_self, Bool.true_or]
  · rw [isPart, a.isLetter_of_isSmall c (hsmall c hc), Bool.true_or, Bool.true_or]

section Reading

variable {a : Alphabet} {name : List Char} {c : Char}

theorem isPart_bar (a : Alphabet) : a.isPart '|' = false := by
  rw [isPart, a.isLetter_bar]
  rfl

theorem isPart_dot (a : Alphabet) : a.isPart '.' = false := by
  rw [isPart, a.isLetter_dot]
  rfl

/-- An identifier is read up to the character that ends it. -/
theorem readLocal_append (h : a.IsLocal name) (hc : a.isPart c = false) (rest : List Char) :
    a.readLocal (name ++ c :: rest) = some (name, c :: rest) := by
  have hall : ∀ d ∈ name, a.isPart d = true := List.all_eq_true.mp h.2.1
  have hc : ¬ a.isPart c = true := Bool.eq_false_iff.mp hc
  rw [readLocal, List.takeWhile_append_of_pos hall, List.takeWhile_cons_of_neg hc,
    List.append_nil, List.dropWhile_append_of_pos hall, List.dropWhile_cons_of_neg hc]
  exact if_pos h

/-- What is read is an identifier. -/
theorem isLocal_of_readLocal {cs rest : List Char} (h : a.readLocal cs = some (name, rest)) :
    a.IsLocal name := by
  unfold readLocal at h
  dsimp only at h
  split at h
  · next hlocal =>
    obtain ⟨rfl, -⟩ := Prod.mk.inj (Option.some.inj h)
    exact hlocal
  · cases h

end Reading

end Alphabet

/-! ## Lines -/

/-- Skips the rest of a line and the line feed; a literal may hold line feeds of its own. -/
def skipLine : Bool → List Char → Option (List Char)
  | _, [] => none
  | true, '\\' :: _ :: rest => skipLine true rest
  | inside, c :: rest =>
      if c = '"' then skipLine (!inside) rest
      else if c = '\n' ∧ inside = false then some rest
      else skipLine inside rest

section Lines

theorem skipLine_code {c : Char} (hquote : c ≠ '"') (hfeed : c ≠ '\n') (rest : List Char) :
    skipLine false (c :: rest) = skipLine false rest := by
  rw [skipLine, if_neg hquote, if_neg fun h => hfeed h.1]
  exact fun _ _ h => Bool.noConfusion h

theorem skipLine_backslash (c : Char) (rest : List Char) :
    skipLine true ('\\' :: c :: rest) = skipLine true rest := by
  rw [skipLine]

theorem skipLine_inside {c : Char} (h : ¬ (c = '\\' ∨ c = '"')) (rest : List Char) :
    skipLine true (c :: rest) = skipLine true rest := by
  rw [not_or] at h
  rw [skipLine, if_neg h.2, if_neg fun hc => Bool.noConfusion hc.2]
  exact fun _ _ _ hslash => absurd hslash h.1

/-- **A field is skipped exactly**, whatever it holds. -/
theorem skipLine_literal (text : String) (rest : List Char) :
    skipLine false ((literal text).toList ++ rest) = skipLine false rest := by
  have hinside : ∀ cs : List Char,
      skipLine true (escape cs ++ '"' :: rest) = skipLine false rest := by
    intro cs
    induction cs with
    | nil => rfl
    | cons c cs ih =>
      rcases escape_cons_cases c cs with ⟨-, h⟩ | ⟨tail, -, -, h⟩ | ⟨hspecial, -, h⟩
      · rw [h, List.cons_append, List.cons_append, skipLine_backslash, ih]
      · rw [h, List.cons_append, List.cons_append, skipLine_backslash, ih]
      · rw [h, List.cons_append, skipLine_inside hspecial, ih]
  rw [toList_literal, List.cons_append, List.append_assoc, List.singleton_append, ← hinside]
  rfl

/-- Pieces of one line: their code has no quotes and no line feeds. -/
def IsLine (ps : List Piece) : Prop :=
  ∀ text, Piece.code text ∈ ps → ∀ c ∈ text.toList, c ≠ '"' ∧ c ≠ '\n'

theorem skipLine_pieces {ps : List Piece} (h : IsLine ps) (rest : List Char) :
    skipLine false (chars ps ++ '\n' :: rest) = some rest := by
  have hcode : ∀ (cs tail : List Char), (∀ c ∈ cs, c ≠ '"' ∧ c ≠ '\n') →
      skipLine false (cs ++ tail) = skipLine false tail := by
    intro cs tail hcs
    induction cs with
    | nil => rfl
    | cons c cs ih =>
      rw [List.forall_mem_cons] at hcs
      rw [List.cons_append, skipLine_code hcs.1.1 hcs.1.2, ih hcs.2]
  induction ps with
  | nil => rfl
  | cons p ps ih =>
    have hrest := ih fun text htext => h text (List.mem_cons_of_mem _ htext)
    rw [chars_cons, List.append_assoc, ← hrest]
    cases p with
    | code text => exact hcode _ _ (h text List.mem_cons_self)
    | quoted text => exact skipLine_literal text _

end Lines

/-! ## Machines -/

/-- What is read of the block of a machine: its name, the parameter of the block, and the variable
that each line begins with. -/
structure Machine where
  name : String
  parameter : List Char
  receivers : List (List Char)
  deriving DecidableEq, Repr

/-- Reads a line of a block. -/
def readReceiver (a : Alphabet) (cs : List Char) : Option (List Char × List Char) := do
  let cs ← expect "    " cs
  let (receiver, cs) ← a.readLocal cs
  let cs ← expect ".vm." cs
  let cs ← skipLine false cs
  pure (receiver, cs)

/-- Reads the block of a machine. -/
def readMachine (a : Alphabet) (cs : List Char) : Option (Machine × List Char) := do
  let cs ← expect "  config.vm.define " cs
  let (name, cs) ← readLiteral cs
  let cs ← expect " do |" cs
  let (parameter, cs) ← a.readLocal cs
  let cs ← expect "|\n" cs
  let (receivers, cs) := readAll (readReceiver a) cs
  let cs ← expect "  end\n" cs
  pure ({ name, parameter, receivers }, cs)

/-- Reads a block after an empty line. -/
def readNextMachine (a : Alphabet) (cs : List Char) : Option (Machine × List Char) := do
  let cs ← expect "\n" cs
  readMachine a cs

/-- Reads blocks. -/
def readBlocksOfMachines (a : Alphabet) (cs : List Char) : List Machine × List Char :=
  match readMachine a cs with
  | none => ([], cs)
  | some (m, cs) =>
      let (ms, cs) := readAll (readNextMachine a) cs
      (m :: ms, cs)

/-- Reads the machines of a Vagrantfile. -/
def readMachines (a : Alphabet) (version text : String) : Option (List Machine) := do
  let cs ← expect (openingText version) text.toList
  let (machines, cs) := readBlocksOfMachines a cs
  let cs ← expect "end\n" cs
  if cs.isEmpty then pure machines else none

/-- The machine of a profile: its name stands on the first line, on the line of the box, and on the
line of every step and of every shared folder. -/
def machineOf (p : Profile) : Machine where
  name := p.name
  parameter := p.name.toList
  receivers := List.replicate (1 + p.steps.length + p.folders.length) p.name.toList

/-! ## What was written is read -/

section Written

variable {a : Alphabet} {p : Profile}

/-- What stands behind `.vm.` on the lines of a block. -/
def lineEnds (p : Profile) : List (List Piece) :=
  [[.code "box = ", .quoted p.box]] ++
  p.steps.map (fun s => [.code "provision ", .quoted s.name, .code ", type: ", .quoted s.kind.name,
    .code ", path: ", .quoted s.path, .code ", privileged: ", .code (truthLiteral s.privileged)]) ++
  p.folders.map fun f => [.code "synced_folder ", .quoted f.hostPath, .code ", ",
    .quoted f.guestPath]

theorem isLine_of_mem_lineEnds : ∀ ps ∈ lineEnds p, IsLine ps := by
  have hcode : ∀ text ∈ ["box = ", "provision ", ", type: ", ", path: ", ", privileged: ", "true",
      "false", "synced_folder ", ", "], ∀ c ∈ text.toList, c ≠ '"' ∧ c ≠ '\n' := by simp
  intro ps hps text htext
  refine hcode text ?_
  simp only [lineEnds, List.mem_append, List.mem_singleton, List.mem_map] at hps
  rcases hps with (rfl | ⟨s, -, rfl⟩) | ⟨f, -, rfl⟩
  · simp_all
  · cases hprivileged : s.privileged <;> simp_all [truthLiteral] <;> tauto
  · simp_all

/-- A line of a block. -/
def lineOf (name : List Char) (ps : List Piece) : List Char :=
  "    ".toList ++ (name ++ (".vm.".toList ++ (chars ps ++ ['\n'])))

theorem chars_blockPieces_eq (p : Profile) :
    chars (blockPieces p) = "  config.vm.define ".toList ++ ((literal p.name).toList ++
      (" do |".toList ++ (p.name.toList ++ ("|\n".toList ++
        ((lineEnds p).flatMap (lineOf p.name.toList) ++ "  end\n".toList))))) := by
  have hsteps : ∀ s, chars (stepPieces p.name s) = lineOf p.name.toList
      [.code "provision ", .quoted s.name, .code ", type: ", .quoted s.kind.name,
        .code ", path: ", .quoted s.path, .code ", privileged: ",
        .code (truthLiteral s.privileged)] := by
    intro s
    simp [stepPieces, stepStart, lineOf]
  have hfolders : ∀ f, chars (folderPieces p.name f) = lineOf p.name.toList
      [.code "synced_folder ", .quoted f.hostPath, .code ", ", .quoted f.guestPath] := by
    intro f
    simp [folderPieces, folderStart, lineOf]
  rw [lineEnds, List.flatMap_append, List.flatMap_append, List.flatMap_singleton, List.flatMap_map,
    List.flatMap_map, blockPieces, chars_append, chars_append, chars_append, chars_flatMap_eq,
    chars_flatMap_eq, List.flatMap_congr fun s _ => hsteps s,
    List.flatMap_congr fun f _ => hfolders f]
  simp [boxStart, lineOf]

theorem readReceiver_lineOf {name : List Char} (h : a.IsLocal name) {ps : List Piece}
    (hps : IsLine ps) (rest : List Char) :
    readReceiver a (lineOf name ps ++ rest) = some (name, rest) := by
  have hname : a.readLocal (name ++ (".vm.".toList ++ (chars ps ++ '\n' :: rest))) =
      some (name, ".vm.".toList ++ (chars ps ++ '\n' :: rest)) :=
    Alphabet.readLocal_append h a.isPart_dot _
  simp only [readReceiver, lineOf, List.append_assoc, List.singleton_append, expect_append, hname,
    skipLine_pieces hps, Option.bind_eq_bind, Option.bind_some]
  rfl

theorem readReceiver_end (rest : List Char) : readReceiver a ("  end\n".toList ++ rest) = none := by
  have hskip : expect "    " ("  end\n".toList ++ rest) = none :=
    @expect_end_eq_none "    " [' '] rfl rest
  rw [readReceiver, hskip]
  rfl

theorem readMachine_append (h : a.IsLocal p.name.toList) (rest : List Char) :
    readMachine a (chars (blockPieces p) ++ rest) = some (machineOf p, rest) := by
  have hname : ∀ tail, a.readLocal (p.name.toList ++ ("|\n".toList ++ tail)) =
      some (p.name.toList, "|\n".toList ++ tail) := fun tail =>
    Alphabet.readLocal_append h a.isPart_bar _
  have hlines : readAll (readReceiver a)
      ((lineEnds p).flatMap (lineOf p.name.toList) ++ ("  end\n".toList ++ rest)) =
        ((lineEnds p).map fun _ => p.name.toList, "  end\n".toList ++ rest) :=
    readAll_flatMap (fun ps hps => readReceiver_lineOf h (isLine_of_mem_lineEnds ps hps))
      (fun _ => List.cons_ne_nil _ _) (readReceiver_end rest)
  have hreceivers : ((lineEnds p).map fun _ => p.name.toList) = (machineOf p).receivers := by
    rw [List.map_const', machineOf, lineEnds, List.length_append, List.length_append,
      List.length_singleton, List.length_map, List.length_map]
  rw [chars_blockPieces_eq]
  simp only [readMachine, List.append_assoc, expect_append, readLiteral_append, hname, hlines,
    Option.bind_eq_bind, Option.bind_some, hreceivers]
  rfl

theorem readNextMachine_append (h : a.IsLocal p.name.toList) (rest : List Char) :
    readNextMachine a ('\n' :: chars (blockPieces p) ++ rest) = some (machineOf p, rest) := by
  have hskip : expect "\n" ('\n' :: chars (blockPieces p) ++ rest) =
      some (chars (blockPieces p) ++ rest) := expect_append "\n" _
  rw [readNextMachine, hskip, Option.bind_eq_bind, Option.bind_some, readMachine_append h]

theorem readBlocksOfMachines_append {profiles : List Profile}
    (h : ∀ p ∈ profiles, a.IsLocal p.name.toList) :
    readBlocksOfMachines a (chars (blocksPieces profiles) ++ "end\n".toList) =
      (profiles.map machineOf, "end\n".toList) := by
  cases profiles with
  | nil => rfl
  | cons p ps =>
    rw [List.forall_mem_cons] at h
    have hrest : readAll (readNextMachine a)
        ((ps.flatMap fun q => '\n' :: chars (blockPieces q)) ++ "end\n".toList) =
        (ps.map machineOf, "end\n".toList) :=
      readAll_flatMap (fun q hq => readNextMachine_append (h.2 q hq))
        (fun _ => List.cons_ne_nil _ _) rfl
    rw [chars_blocksPieces_cons, List.append_assoc, readBlocksOfMachines, readMachine_append h.1]
    simp only [hrest, List.map_cons]

theorem readMachines_render {s : ProfileSet} (version : String)
    (h : ∀ p ∈ s.profiles, a.IsLocal p.name.toList) :
    readMachines a version (render version s) = some (s.profiles.map machineOf) := by
  have hend : expect "end\n" "end\n".toList = some [] := rfl
  rw [readMachines, toList_render, expect_append, Option.bind_eq_bind, Option.bind_some,
    readBlocksOfMachines_append h]
  simp only [hend, Option.bind_some]
  rfl

end Written

/-! ## What is read has identifiers -/

section Read

variable {a : Alphabet}

theorem isLocal_of_readMachine {cs rest : List Char} {m : Machine}
    (h : readMachine a cs = some (m, rest)) : a.IsLocal m.parameter := by
  simp only [readMachine, Option.bind_eq_bind, Option.bind_eq_some_iff, Prod.exists] at h
  obtain ⟨_, -, _, _, -, _, -, parameter, _, hparameter, _, -, _, -, h⟩ := h
  obtain ⟨rfl, -⟩ := Prod.mk.inj (Option.some.inj h)
  exact Alphabet.isLocal_of_readLocal hparameter

theorem isLocal_of_readNextMachine {cs rest : List Char} {m : Machine}
    (h : readNextMachine a cs = some (m, rest)) : a.IsLocal m.parameter := by
  simp only [readNextMachine, Option.bind_eq_bind, Option.bind_eq_some_iff] at h
  obtain ⟨_, -, h⟩ := h
  exact isLocal_of_readMachine h

/-- What every reading has, all items that are read have. -/
theorem forall_mem_readMany {α : Type} {read : List Char → Option (α × List Char)} {P : α → Prop}
    (h : ∀ cs x rest, read cs = some (x, rest) → P x) (fuel : Nat) (cs : List Char) :
    ∀ x ∈ (readMany read fuel cs).1, P x := by
  induction fuel generalizing cs with
  | zero => exact List.forall_mem_nil _
  | succ fuel ih =>
    rw [readMany]
    split
    · exact List.forall_mem_nil _
    · next x rest hread => exact List.forall_mem_cons.mpr ⟨h cs x rest hread, ih rest⟩

/-- **The parameter of every machine that is read is an identifier.** -/
theorem isLocal_of_readMachines {version text : String} {machines : List Machine}
    (h : readMachines a version text = some machines) : ∀ m ∈ machines, a.IsLocal m.parameter := by
  have hblocks : ∀ cs, ∀ m ∈ (readBlocksOfMachines a cs).1, a.IsLocal m.parameter := by
    intro cs
    rw [readBlocksOfMachines]
    split
    · exact List.forall_mem_nil _
    · next m rest hread =>
      exact List.forall_mem_cons.mpr ⟨isLocal_of_readMachine hread,
        forall_mem_readMany (fun _ _ _ => isLocal_of_readNextMachine) _ rest⟩
  simp only [readMachines, Option.bind_eq_bind, Option.bind_eq_some_iff] at h
  obtain ⟨cs, -, rest, -, h⟩ := h
  split at h
  · obtain rfl := Option.some.inj h
    exact hblocks cs
  · cases h

end Read

/-! ## Machines with the names of their profiles -/

/-- The names of the profiles of a project are identifiers. -/
theorem isLocal_declared (a : Alphabet) (folders : List SharedFolder) :
    ∀ p ∈ (declaredProfiles (linuxProfile folders)).profiles, a.IsLocal p.name.toList := by
  have hosx : a.IsLocal "osx".toList :=
    a.isLocal_of_isLower (by decide) (by decide +kernel) (by decide +kernel)
  have hlinux : a.IsLocal "linux".toList :=
    a.isLocal_of_isLower (by decide) (by decide +kernel) (by decide +kernel)
  intro p hp
  rcases List.mem_pair.mp hp with rfl | rfl
  · exact hosx
  · exact hlinux

/-- **The machines are read with the name of their profile as the variable on every line exactly if
all names are identifiers**, and the names of the profiles of a project are. -/
theorem readMachines_render_iff (a : Alphabet) (version : String) :
    (∀ s, readMachines a version (render version s) = some (s.profiles.map machineOf) ↔
      ∀ p ∈ s.profiles, a.IsLocal p.name.toList) ∧
    ∀ setting audience s profiles t,
      (Session.declareProfiles setting audience).perform s = (.ok profiles, t) →
      readMachines a version (render version profiles) = some (profiles.profiles.map machineOf) := by
  constructor
  · intro s
    refine ⟨fun h p hp => ?_, readMachines_render version⟩
    exact isLocal_of_readMachines h (machineOf p) (List.mem_map_of_mem hp)
  · intro setting audience s profiles t h
    refine readMachines_render version ?_
    rw [perform_declareProfiles] at h
    split at h
    · next folders hfolders =>
      obtain rfl := Except.ok.inj (congrArg Prod.fst h)
      exact isLocal_declared a folders
    · cases h

theorem readMachines_render_ownProject :
    ∃ profiles t, (Session.declareProfiles none .nobody).perform default = (.ok profiles, t) ∧
      readMachines .ascii "0.1.0" (render "0.1.0" profiles) =
        some (profiles.profiles.map machineOf) := by
  have hfolders : (Workspace.ofSetting none).folders (default : Session).environment.home =
      .ok [] := rfl
  have hrun := perform_declareProfiles_ok hfolders .nobody
  exact ⟨_, _, hrun, (readMachines_render_iff .ascii "0.1.0").2 _ _ _ _ _ hrun⟩

/-- A name with a hyphen is accepted, and no machine can be read. -/
theorem readMachines_hyphenatedName :
    let p : Profile := { name := "my-box", box := "ubuntu/jammy64" }
    ProfileSet.ofValue "/home/u" (ProfileSet.toValue ⟨[p]⟩) = .ok ⟨[p]⟩ ∧
      readMachines .ascii "0.1.0" (render "0.1.0" ⟨[p]⟩) = none := by
  decide +kernel

end Vagrantfile
end DevMachines
