import DevMachines.Profile.Overview
import DevMachines.Proofs.Profile.Rereading
import DevMachines.Proofs.Results
import DevMachines.Proofs.Terminal.Parts
import DevMachines.Proofs.Terminal.WideTable
import DevMachines.Proofs.Yaml.Numbers

/-!
# What the table of profiles shows

Where there is room, the table of profiles has a row for each profile, with its name, its box, a
line for each step and a line for each shared folder.  `sheet` is that table with every field as it
is, and the question is when it is the one that is printed.

Paths are escaped and the other fields are not, so it depends on what stands in them.
`ShowsLiterally` is the exact condition on a profile, field by field: no bracket of a name or of a
box may begin a tag or stand behind a backslash; a path may contain tags, but no other bracket
behind a backslash, and it may not end in a single backslash.

Main statement: `print_showsProfiles`.

## Why a step is judged with what follows it

A bracket in the name of a step may begin a tag that ends much later, in its path or in the next
step.  So a name is literal or not only in front of the rest of its cell, and the condition is about
the parts of a cell in order.
-/

namespace DevMachines

/-- All texts of a profile. -/
def Profile.texts (p : Profile) : List String :=
  [p.name, p.box] ++ p.steps.flatMap (fun s => [s.name, s.path]) ++
    p.folders.flatMap fun f => [f.hostPath, f.guestPath]

namespace Overview

open Terminal

/-! ## The table as it should be -/

/-- What stands around a step: the number in front of the name, and the end of the line. -/
def stepFront (number : Nat) (s : Step) : List Char :=
  (toString number ++ ". " ++ s.name ++ " (").toList

def stepEnd (s : Step) : List Char := (if s.privileged then ", privileged)" else ")").toList

/-- The line of a step. -/
def stepLine (number : Nat) (s : Step) : List Char :=
  stepFront number s ++ s.path.toList ++ stepEnd s

/-- The line of a shared folder. -/
def folderLine (f : SharedFolder) : List Char :=
  f.hostPath.toList ++ " → ".toList ++ f.guestPath.toList

/-- The lines of a cell, or a dash. -/
def linesOrDash (lines : List (List Char)) : List (List Char) :=
  if lines.isEmpty then [['-']] else lines

/-- The lines of the steps, numbered from one on. -/
def stepLines (p : Profile) : List (List Char) :=
  p.steps.zipIdx.map fun (s, i) => stepLine (i + 1) s

/-- The cells of a profile, line by line. -/
def literalCells (p : Profile) : List (List (List Char)) :=
  [[p.name.toList], [p.box.toList], linesOrDash (stepLines p),
    linesOrDash (p.folders.map folderLine)]

/-- The table with every field as it is. -/
def sheet (s : ProfileSet) : Sheet where
  title := title
  headers := headers.map String.toList
  rows := s.profiles.map literalCells

/-! ## The parts of the cells -/

/-- The parts of the line of a step. -/
def stepParts (number : Nat) (s : Step) : List Part :=
  [.raw (stepFront number s), .escaped s.path.toList, .raw (stepEnd s)]

/-- The parts of the line of a shared folder. -/
def folderParts (f : SharedFolder) : List Part :=
  [.escaped f.hostPath.toList, .raw " → ".toList, .escaped f.guestPath.toList]

/-- The parts of the cells of a profile. -/
def cellParts (p : Profile) : List (List Part) :=
  [[.raw p.name.toList], [.raw p.box.toList],
    lineParts (p.steps.zipIdx.map fun (s, i) => stepParts (i + 1) s),
    lineParts (p.folders.map folderParts)]

/-- Is every field of a profile shown as it is? -/
def ShowsLiterally (p : Profile) : Prop := ∀ cell ∈ cellParts p, AreLiteral cell

instance : DecidablePred ShowsLiterally := fun p =>
  inferInstanceAs (Decidable (∀ cell ∈ cellParts p, AreLiteral cell))

section Lines

variable {number : Nat} {s : Step} {f : SharedFolder}

theorem stepText_eq (number : Nat) (s : Step) :
    (stepText number s).toList = markupOf (stepParts number s) := by
  simp [stepText, stepParts, stepFront, stepEnd, pathText, markupOf, Part.markup]

theorem textOf_stepParts (number : Nat) (s : Step) :
    textOf (stepParts number s) = stepLine number s := by
  simp [stepParts, stepLine, textOf, Part.text]

theorem folderText_eq (f : SharedFolder) : (folderText f).toList = markupOf (folderParts f) := by
  simp [folderText, folderParts, pathText, markupOf, Part.markup]

theorem textOf_folderParts (f : SharedFolder) : textOf (folderParts f) = folderLine f := by
  simp [folderParts, folderLine, textOf, Part.text]

theorem slashesAfter_stepEnd (s : Step) : slashesAfter 0 (stepEnd s) = 0 := by
  rw [stepEnd]
  split <;> decide

/-- The parts of a step go together, and a line feed may follow. -/
theorem isLineOfParts_step (number : Nat) (s : Step) : IsLineOfParts (stepParts number s) := by
  have hfront : slashesAfter 0 (stepFront number s) = 0 := by
    rw [stepFront, String.toList_append]
    exact slashesAfter_append_cons (by decide) 0 _ ['(']
  have hend : Part.Apart (.escaped s.path.toList) (.raw (stepEnd s)) := by
    rw [stepEnd]
    split
    · exact (by decide : ',' ≠ '[' ∧ ',' ≠ '\\' ∧ startsTag ',' = false)
    · exact (by decide : ')' ≠ '[' ∧ ')' ≠ '\\' ∧ startsTag ')' = false)
  rw [IsLineOfParts, stepParts]
  refine .cons_cons hfront (.cons_cons hend (.cons_cons ?_ (.singleton _)))
  exact slashesAfter_stepEnd s

theorem isLineOfParts_folder (f : SharedFolder) : IsLineOfParts (folderParts f) := by
  have harrow : slashesAfter 0 " → ".toList = 0 := by decide
  have hblank : ' ' ≠ '[' ∧ ' ' ≠ '\\' ∧ startsTag ' ' = false := by decide
  have hfeed : '\n' ≠ '[' ∧ '\n' ≠ '\\' ∧ startsTag '\n' = false := by decide
  exact .cons_cons hblank (.cons_cons harrow (.cons_cons hfeed (.singleton _)))

end Lines

/-! ## Texts that have no control characters -/

section Plain

variable {p : Profile}

/-- A text is plain if its parts are. -/
theorem isPlainText_append {a b : String} :
    IsPlainText (a ++ b) ↔ IsPlainText a ∧ IsPlainText b := by
  rw [IsPlainText, String.toList_append, List.forall_mem_append]
  rfl

theorem isPlain_stepLine {s : Step} (number : Nat) (hname : IsPlainText s.name)
    (hpath : IsPlainText s.path) : ∀ c ∈ stepLine number s, IsPlain c := by
  have hnumber : IsPlainText (toString number) := by
    intro c hc
    rw [Nat.toString_eq_repr, Nat.toList_repr] at hc
    have hbounds := Yaml.bounds_of_mem_toDigits hc
    unfold IsPlain
    omega
  have hend : ∀ c ∈ stepEnd s, IsPlain c := by
    rw [stepEnd]
    split
    · exact (by decide : IsPlainText ", privileged)")
    · exact (by decide : IsPlainText ")")
  have hfront : IsPlainText (toString number ++ ". " ++ s.name ++ " (") := by
    simp only [isPlainText_append]
    exact ⟨⟨⟨hnumber, by decide⟩, hname⟩, by decide⟩
  rw [stepLine, List.forall_mem_append, List.forall_mem_append]
  exact ⟨⟨hfront, hpath⟩, hend⟩

theorem isPlain_folderLine {f : SharedFolder} (hhost : IsPlainText f.hostPath)
    (hguest : IsPlainText f.guestPath) : ∀ c ∈ folderLine f, IsPlain c := by
  have harrow : IsPlainText " → " := by decide
  rw [folderLine, List.forall_mem_append, List.forall_mem_append]
  exact ⟨⟨hhost, harrow⟩, hguest⟩

theorem isPlain_stepLines (h : ∀ text ∈ p.texts, IsPlainText text) :
    ∀ line ∈ stepLines p, ∀ c ∈ line, IsPlain c := by
  intro line hline
  obtain ⟨⟨s, i⟩, hs, rfl⟩ := List.mem_map.mp hline
  have htexts : ∀ text ∈ [s.name, s.path], text ∈ p.texts := fun text htext =>
    List.mem_append_left _ (List.mem_append_right _
      (List.mem_flatMap.mpr ⟨s, List.fst_mem_of_mem_zipIdx hs, htext⟩))
  exact isPlain_stepLine (i + 1) (h _ (htexts _ (by simp))) (h _ (htexts _ (by simp)))

theorem isPlain_folderLines (h : ∀ text ∈ p.texts, IsPlainText text) :
    ∀ line ∈ p.folders.map folderLine, ∀ c ∈ line, IsPlain c := by
  intro line hline
  obtain ⟨f, hf, rfl⟩ := List.mem_map.mp hline
  have htexts : ∀ text ∈ [f.hostPath, f.guestPath], text ∈ p.texts := fun text htext =>
    List.mem_append_right _ (List.mem_flatMap.mpr ⟨f, hf, htext⟩)
  exact isPlain_folderLine (h _ (htexts _ (by simp))) (h _ (htexts _ (by simp)))

theorem isPlain_linesOrDash {lines : List (List Char)} (h : ∀ line ∈ lines, ∀ c ∈ line, IsPlain c) :
    ∀ line ∈ linesOrDash lines, ∀ c ∈ line, IsPlain c := by
  rw [linesOrDash]
  split
  · rw [List.forall_mem_singleton, List.forall_mem_singleton]
    decide
  · exact h

end Plain

/-! ## Rendering the cells -/

/-- A plain line has nothing that a terminal acts on, and neither have several. -/
theorem not_isTerminalControl_of_lines {lines : List (List Char)}
    (h : ∀ line ∈ lines, ∀ c ∈ line, IsPlain c) :
    ∀ c ∈ List.intercalate ['\n'] lines, isTerminalControl c = false := by
  induction lines with
  | nil => exact fun _ => nofun
  | cons line lines ih =>
    rw [List.forall_mem_cons] at h
    have hline : ∀ c ∈ line, isTerminalControl c = false :=
      fun c hc => (h.1 c hc).not_isTerminalControl
    cases lines with
    | nil => rwa [List.intercalate_singleton]
    | cons next lines =>
      rw [List.intercalate_cons_cons, List.forall_mem_append, List.forall_mem_append,
        List.forall_mem_singleton]
      exact ⟨⟨hline, rfl⟩, ih h.2⟩

/-- A field that is a cell by itself. -/
theorem render_field_iff {field : String} (h : IsPlainText field) :
    render field.toList = .ok (List.intercalate ['\n'] [field.toList]) ↔
      AreLiteral [.raw field.toList] := by
  have hmarkup : markupOf [.raw field.toList] = field.toList := List.flatMap_singleton _ _
  have htext : textOf [.raw field.toList] = field.toList := List.flatMap_singleton _ _
  have hrender := render_parts_iff (.singleton (Part.raw field.toList)) fun c hc =>
    (h c (htext ▸ hc)).not_isTerminalControl
  rw [List.intercalate_singleton]
  rwa [hmarkup, htext] at hrender

/-- A cell of several lines, each of which is put together from parts. -/
theorem render_cellText_iff {α : Type} {xs : List α} {text : α → String} {parts : α → List Part}
    {line : α → List Char} (htext : ∀ x, (text x).toList = markupOf (parts x))
    (hline : ∀ x, textOf (parts x) = line x) (hparts : ∀ x, IsLineOfParts (parts x))
    (hplain : ∀ l ∈ linesOrDash (xs.map line), ∀ c ∈ l, IsPlain c) :
    render (cellText (xs.map text)).toList =
        .ok (List.intercalate ['\n'] (linesOrDash (xs.map line))) ↔
      AreLiteral (lineParts (xs.map parts)) := by
  cases xs with
  | nil =>
    have hdash : render nothing.toList = .ok ['-'] := by decide +kernel
    exact iff_of_true hdash trivial
  | cons x xs =>
    generalize hxs : x :: xs = ys at hplain ⊢
    have hmarkup : (cellText (ys.map text)).toList = markupOf (lineParts (ys.map parts)) := by
      have hnil : (ys.map text).isEmpty = false := by rw [← hxs]; rfl
      rw [cellText, hnil, markupOf_lineParts, List.map_map]
      have hmap : ys.map (markupOf ∘ parts) = (ys.map text).map String.toList := by
        rw [List.map_map]
        exact List.map_congr_left fun y _ => (htext y).symm
      rw [hmap]
      exact String.toList_intercalate
    have hshown : List.intercalate ['\n'] (linesOrDash (ys.map line)) =
        textOf (lineParts (ys.map parts)) := by
      have hnil : (ys.map line).isEmpty = false := by rw [← hxs]; rfl
      rw [linesOrDash, hnil, textOf_lineParts, List.map_map]
      exact congrArg _ (List.map_congr_left fun y _ => (hline y).symm)
    have hcontrol := not_isTerminalControl_of_lines hplain
    rw [hshown] at hcontrol
    rw [hmarkup, hshown]
    refine render_parts_iff (isChain_lineParts fun l hl => ?_) hcontrol
    obtain ⟨y, -, rfl⟩ := List.mem_map.mp hl
    exact hparts y

/-- What the cell of a profile in a column should show. -/
def literalText (p : Profile) (column : Nat) : List Char :=
  List.intercalate ['\n'] ((literalCells p).getD column [])

/-- **A profile is shown literally exactly if each of its cells is rendered to its lines.** -/
theorem showsLiterally_iff {p : Profile} (h : ∀ text ∈ p.texts, IsPlainText text) :
    ShowsLiterally p ↔ ∀ column < headers.length,
      render ((cells p).getD column "").toList = .ok (literalText p column) := by
  have hname := render_field_iff (h p.name (by simp [Profile.texts]))
  have hbox := render_field_iff (h p.box (by simp [Profile.texts]))
  have hsteps := @render_cellText_iff _ p.steps.zipIdx (fun (s, i) => stepText (i + 1) s)
    (fun (s, i) => stepParts (i + 1) s) (fun (s, i) => stepLine (i + 1) s)
    (fun (s, i) => stepText_eq (i + 1) s) (fun (s, i) => textOf_stepParts (i + 1) s)
    (fun (s, i) => isLineOfParts_step (i + 1) s) (isPlain_linesOrDash (isPlain_stepLines h))
  have hfolders := @render_cellText_iff _ p.folders folderText folderParts folderLine folderText_eq
    textOf_folderParts isLineOfParts_folder (isPlain_linesOrDash (isPlain_folderLines h))
  rw [ShowsLiterally, cellParts, List.forall_mem_cons, List.forall_mem_cons, List.forall_mem_cons,
    List.forall_mem_singleton, ← hname, ← hbox, ← hsteps, ← hfolders]
  constructor
  · rintro ⟨hzero, hone, htwo, hthree⟩ column hcolumn
    match column, hcolumn with
    | 0, _ => exact hzero
    | 1, _ => exact hone
    | 2, _ => exact htwo
    | 3, _ => exact hthree
  · intro hall
    exact ⟨hall 0 (by decide), hall 1 (by decide), hall 2 (by decide), hall 3 (by decide)⟩

/-! ## Rows and columns -/

/-- Reading a table column by column comes to given rows exactly if every cell comes to what its row
says. -/
theorem readColumns_eq_ok_iff {ε α β : Type} {n : Nat} {xs : List α} {read : Nat → α → Except ε β}
    {value : Nat → α → β} (blank : β) :
    ((List.range n).mapM fun i => xs.mapM (read i)).map (fun columns =>
        (List.range xs.length).map fun r => columns.map fun column => column.getD r blank) =
      .ok (xs.map fun x => (List.range n).map fun i => value i x) ↔
    ∀ x ∈ xs, ∀ i < n, read i x = .ok (value i x) := by
  constructor
  · intro h x hx i hi
    obtain ⟨columns, hcolumns, hrows⟩ := map_eq_ok_iff.mp h
    obtain ⟨r, hr, rfl⟩ := List.mem_iff_getElem.mp hx
    -- the column with the number, as it was read
    have hcolumn := congrArg (fun list => list[i]?) (mapM_eq_ok_iff.mp hcolumns)
    simp only [List.getElem?_map, List.getElem?_range hi, Option.map_some] at hcolumn
    cases hread : columns[i]? with
    | none => rw [hread] at hcolumn; cases hcolumn
    | some column =>
      rw [hread, Option.map_some] at hcolumn
      have hcell := congrArg (fun list => list[r]?)
        (mapM_eq_ok_iff.mp (Option.some.inj hcolumn))
      -- and what the row with the number shows in it
      have hrow := congrArg (fun list => list[r]?) hrows
      simp only [List.getElem?_map, List.getElem?_range hr, List.getElem?_eq_getElem hr,
        Option.map_some] at hcell hrow
      have hshown := congrArg (fun list => list[i]?) (Option.some.inj hrow)
      simp only [List.getElem?_map, List.getElem?_range hi, hread, Option.map_some] at hshown
      cases hcol : column[r]? with
      | none => rw [hcol] at hcell; cases hcell
      | some result =>
        rw [hcol, Option.map_some] at hcell
        rw [List.getD_eq_getElem?_getD, hcol, Option.getD_some] at hshown
        rw [Option.some.inj hcell, Option.some.inj hshown]
  · intro h
    refine map_eq_ok_iff.mpr ⟨(List.range n).map fun i => xs.map (value i), ?_, ?_⟩
    · refine mapM_eq_ok_iff.mpr ?_
      rw [List.map_map]
      refine List.map_congr_left fun i hi => ?_
      refine mapM_eq_ok_iff.mpr ?_
      rw [List.map_map]
      exact List.map_congr_left fun x hx => h x hx i (List.mem_range.mp hi)
    · refine List.ext_getElem (by simp) fun r hr _ => ?_
      have hr : r < xs.length := by simpa using hr
      simp [hr]

/-- **The rows of the table show every field as it is exactly if every profile is shown
literally.** -/
theorem shownRows_eq_ok_iff {s : ProfileSet}
    (h : ∀ p ∈ s.profiles, ∀ text ∈ p.texts, IsPlainText text) :
    shownRows s = .ok (sheet s).table.rows ↔ ∀ p ∈ s.profiles, ShowsLiterally p := by
  have hrows : (sheet s).table.rows =
      s.profiles.map fun p => (List.range headers.length).map (literalText p) := by
    rw [Sheet.table, sheet, List.map_map]
    rfl
  have hread := @readColumns_eq_ok_iff _ _ _ headers.length s.profiles
    (fun i p => render ((cells p).getD i "").toList) (fun i p => literalText p i) []
  rw [hrows]
  refine hread.trans (forall₂_congr fun p hp => ?_)
  exact (showsLiterally_iff (h p hp)).symm

/-! ## Accepted profiles have firm tables -/

section Firm

/-- A name that is accepted has no blank at its end. -/
theorem isFirm_of_readName {v : Value} {name : String} (h : readName v = .ok name)
    (hplain : IsPlainText name) : Terminal.IsFirm name.toList := by
  refine ⟨hplain, Or.inr fun c hc => ?_⟩
  obtain ⟨s, -, h⟩ := Validated.bind_eq_ok_iff.mp h
  split at h
  · cases h
  · obtain rfl := Except.ok.inj h
    rw [Text.trimmed, String.toList_ofList, Text.trim, Text.trimEnd_eq_rdropWhile] at hc
    obtain ⟨hnil, rfl⟩ := List.mem_getLast?_eq_getLast hc
    exact Bool.eq_false_iff.mpr (List.rdropWhile_last_not _ _ hnil)

theorem isFirm_stepLine {s : Step} {number : Nat} (h : ∀ c ∈ stepLine number s, IsPlain c) :
    Terminal.IsFirm (stepLine number s) := by
  refine ⟨h, Or.inr fun c hc => ?_⟩
  have hend : ∃ front, stepEnd s = front ++ [')'] := by
    rw [stepEnd]
    split
    · exact ⟨", privileged".toList, rfl⟩
    · exact ⟨[], rfl⟩
  obtain ⟨front, hfront⟩ := hend
  rw [stepLine, hfront, ← List.append_assoc, List.getLast?_concat] at hc
  obtain rfl := Option.some.inj hc
  rfl

/-- The name and the box of an accepted profile have been read as names. -/
theorem exists_readName {home : String} {v : Value} {s : ProfileSet}
    (h : ProfileSet.ofValue home v = .ok s) : ∀ p ∈ s.profiles,
      (∃ v, readName v = .ok p.name) ∧ ∃ v, readName v = .ok p.box := by
  intro p hp
  obtain ⟨fields, -, hprofiles⟩ := ProfileSet.ofValue_eq_ok_iff.mp h
  rcases exists_of_optional hprofiles with hnone | ⟨list, hlist⟩
  · rw [hnone] at hp
    cases hp
  · obtain ⟨hread, -⟩ := readProfiles_eq_ok_iff.mp hlist
    obtain ⟨item, hitem⟩ := exists_of_mem_readList hread p hp
    obtain ⟨fields, -, hname, hbox, -⟩ := Profile.ofValue_eq_ok_iff.mp hitem
    exact ⟨exists_of_required hname, exists_of_required hbox⟩

/-- A cell has a line, and its lines are firm if the lines that it is made of are. -/
theorem isFirm_linesOrDash {lines : List (List Char)} (h : ∀ line ∈ lines, Terminal.IsFirm line) :
    linesOrDash lines ≠ [] ∧ ∀ line ∈ linesOrDash lines, Terminal.IsFirm line := by
  rw [linesOrDash]
  split
  · rw [List.forall_mem_singleton]
    exact ⟨List.cons_ne_nil _ _, by decide +kernel⟩
  · next hnil => exact ⟨fun hempty => hnil (List.isEmpty_iff.mpr hempty), h⟩

/-- The table is wider than the header of a column, and wide enough to have room for text. -/
theorem header_lt_width (s : ProfileSet) :
    cellCount "Provisioning".toList < (sheet s).width ∧ blankWidth < (sheet s).width := by
  have hheader : cellCount "Provisioning".toList ≤
      (sheet s).lineWidth "Provisioning".toList 2 := le_greatest List.mem_cons_self
  have hcolumn : (sheet s).lineWidth "Provisioning".toList 2 + cellPadding ≤
      total (sheet s).widths := le_total (by simp [Sheet.widths, sheet, headers])
  have hblank : blankWidth ≤ cellCount "Provisioning".toList := by decide +kernel
  rw [Sheet.width]
  omega

/-- **The table of accepted profiles is firm**, but for blanks at the end of a shared folder. -/
theorem isFirm_sheet {home : String} {v : Value} {s : ProfileSet}
    (haccepted : ProfileSet.ofValue home v = .ok s)
    (hplain : ∀ p ∈ s.profiles, ∀ text ∈ p.texts, IsPlainText text)
    (hfolders : ∀ p ∈ s.profiles, ∀ f ∈ p.folders, Terminal.IsFirm (folderLine f)) :
    (sheet s).IsFirm where
  title := by
    have htitle : Terminal.IsFirm title.toList ∧ Text.trimEnd title.toList = title.toList ∧
        cellCount title.toList ≤ cellCount "Provisioning".toList := by decide +kernel
    exact ⟨htitle.1, htitle.2.1, htitle.2.2.trans (header_lt_width s).1.le⟩
  headers_ne_nil := List.cons_ne_nil _ _
  headers := by
    have hheaders : ∀ header ∈ headers.map String.toList,
        Terminal.IsFirm header ∧ 0 < cellCount header := by decide +kernel
    exact hheaders
  rows := by
    intro row hrow
    obtain ⟨p, hp, rfl⟩ := List.mem_map.mp hrow
    refine ⟨rfl, ?_⟩
    obtain ⟨⟨_, hname⟩, ⟨_, hbox⟩⟩ := exists_readName haccepted p hp
    have hone : ∀ {line : List Char}, Terminal.IsFirm line →
        [line] ≠ [] ∧ ∀ l ∈ [line], Terminal.IsFirm l := fun hline =>
      ⟨List.cons_ne_nil _ _, List.forall_mem_singleton.mpr hline⟩
    intro cell hcell
    simp only [literalCells, List.mem_cons, List.not_mem_nil, or_false] at hcell
    rcases hcell with rfl | rfl | rfl | rfl
    · exact hone (isFirm_of_readName hname (hplain p hp p.name (by simp [Profile.texts])))
    · exact hone (isFirm_of_readName hbox (hplain p hp p.box (by simp [Profile.texts])))
    · refine isFirm_linesOrDash fun line hline => ?_
      have hlines := isPlain_stepLines (hplain p hp) line hline
      obtain ⟨⟨step, i⟩, -, rfl⟩ := List.mem_map.mp hline
      exact isFirm_stepLine hlines
    · refine isFirm_linesOrDash fun line hline => ?_
      obtain ⟨f, hf, rfl⟩ := List.mem_map.mp hline
      exact hfolders p hp f hf

end Firm

/-! ## The table that is printed -/

/-- **The table shows every field as it is exactly if every profile is shown literally**, and then it
is printed that way on every terminal that is wide enough. -/
theorem print_showsProfiles {home : String} {v : Value} {s : ProfileSet}
    (haccepted : ProfileSet.ofValue home v = .ok s)
    (hplain : ∀ p ∈ s.profiles, ∀ text ∈ p.texts, IsPlainText text) :
    (shownRows s = .ok (sheet s).table.rows ↔ ∀ p ∈ s.profiles, ShowsLiterally p) ∧
    ((∀ p ∈ s.profiles, ShowsLiterally p ∧ ∀ f ∈ p.folders, Terminal.IsFirm (folderLine f)) →
      ∀ width, (sheet s).width ≤ width → Overview.print width s = .ok (sheet s).drawing) := by
  refine ⟨shownRows_eq_ok_iff hplain, fun h width hwidth => ?_⟩
  have hrows := (shownRows_eq_ok_iff hplain).mpr fun p hp => (h p hp).1
  have hfirm := isFirm_sheet haccepted hplain fun p hp => (h p hp).2
  have hroom : ¬ width ≤ blankWidth := by
    have hwide := (header_lt_width s).2
    omega
  have htable : tableOf (sheet s).table.rows = (sheet s).table := rfl
  rw [Overview.print, if_neg hroom, hrows, ok_bind]
  dsimp only
  rw [htable, Sheet.print_table hfirm hwidth]
  rfl

/-- Tags in paths come out as they are. -/
theorem print_showsProfiles_taggedPaths :
    let p : Profile := {
      name := "web", box := "ubuntu/jammy64",
      steps := [{ name := "setup", path := "[b]/setup.sh", privileged := true }],
      folders := [{ hostPath := "/srv/[/]", guestPath := "/web[1]" }] }
    ProfileSet.ofValue "/home/u" (ProfileSet.toValue ⟨[p]⟩) = .ok ⟨[p]⟩ ∧
      Overview.print 100 ⟨[p]⟩ = .ok (sheet ⟨[p]⟩).drawing := by
  intro p
  have haccepted : ProfileSet.ofValue "/home/u" (ProfileSet.toValue ⟨[p]⟩) = .ok ⟨[p]⟩ := by
    decide +kernel
  have hplain : ∀ q ∈ [p], ∀ text ∈ q.texts, IsPlainText text := by decide +kernel
  have hshown : ∀ q ∈ [p], ShowsLiterally q ∧ ∀ f ∈ q.folders, Terminal.IsFirm (folderLine f) := by
    decide +kernel
  have hwidth : (sheet ⟨[p]⟩).width ≤ 100 := by decide +kernel
  exact ⟨haccepted, (print_showsProfiles haccepted hplain).2 hshown 100 hwidth⟩

/-- A tag in the name of a profile is not shown, and one in a box can make the printing fail. -/
theorem print_readsTags :
    let p : Profile := { name := "web[b]", box := "jammy64" }
    let q : Profile := { name := "web", box := "[/x]" }
    ProfileSet.ofValue "/home/u" (ProfileSet.toValue ⟨[p]⟩) = .ok ⟨[p]⟩ ∧
      shownRows ⟨[p]⟩ = .ok [["web".toList, "jammy64".toList, ['-'], ['-']]] ∧
      ProfileSet.ofValue "/home/u" (ProfileSet.toValue ⟨[q]⟩) = .ok ⟨[q]⟩ ∧
      Overview.print 80 ⟨[q]⟩ = .error (.noSuchTag "/x" 0) := by
  decide +kernel

end Overview
end DevMachines
