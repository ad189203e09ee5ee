import DevMachines.Proofs.Yaml.Fitting

/-!
# How a value is written

The ink of a value writes the characters of a written value that shows it.  Apart from the column, what
is written depends on the pen in one more way: an object that has been written is only referred to.  So
the induction goes along the value, from what has been met before to what has been met behind it, and the
pen follows with the labels of the objects that have an anchor (`Follows`).

Main statements: `isWritten`, `exists_render` and `readValue_render`.
-/

namespace DevMachines.Yaml

/-! ## What has been met -/

/-- Has at least as much been met? -/
structure Occurrences.Precedes (o o' : Occurrences) : Prop where
  met : ∀ l ∈ o.met, l ∈ o'.met
  again : ∀ l ∈ o.again, l ∈ o'.again

namespace Occurrences

variable {o o' o'' : Occurrences}

theorem Precedes.refl (o : Occurrences) : o.Precedes o := ⟨fun _ => id, fun _ => id⟩

theorem Precedes.trans (h : o.Precedes o') (h' : o'.Precedes o'') : o.Precedes o'' :=
  ⟨fun l hl => h'.met l (h.met l hl), fun l hl => h'.again l (h.again l hl)⟩

theorem precedes_note (label : Option Label) (o : Occurrences) : o.Precedes (o.note label).2 := by
  cases label with
  | none => exact .refl o
  | some l =>
    simp only [note]
    split
    · split
      · exact .refl o
      · exact ⟨fun _ => id, fun _ => List.mem_cons_of_mem _⟩
    · exact ⟨fun _ => List.mem_cons_of_mem _, fun _ => id⟩

/-- What is noted has been met then. -/
theorem met_note (l : Label) (o : Occurrences) : l ∈ (o.note (some l)).2.met := by
  by_cases h : l ∈ o.met
  · exact (precedes_note (some l) o).met l h
  · simp [note, h]

/-- What is met again is noted as such. -/
theorem again_note_of_met {l : Label} (h : l ∈ o.met) : l ∈ (o.note (some l)).2.again := by
  simp only [note, List.contains_iff_mem, h, ↓reduceIte]
  split
  · assumption
  · exact List.mem_cons_self ..

end Occurrences

mutual

theorem precedes_noteLabels : (v : Value) → (o : Occurrences) → o.Precedes (noteLabels v o)
  | .list label items, o => by
    rw [noteLabels]
    dsimp only
    split
    · exact (o.precedes_note label).trans (precedes_noteItems items _)
    · exact o.precedes_note label
  | .pair label a b, o => by
    rw [noteLabels]
    dsimp only
    split
    · exact ((o.precedes_note label).trans (precedes_noteLabels a _)).trans (precedes_noteLabels b _)
    · exact o.precedes_note label
  | .set label elements, o => by
    rw [noteLabels]
    dsimp only
    split
    · exact (o.precedes_note label).trans (precedes_noteItems elements _)
    · exact o.precedes_note label
  | .map label entries, o => by
    rw [noteLabels]
    dsimp only
    split
    · exact (o.precedes_note label).trans (precedes_noteEntries entries _)
    · exact o.precedes_note label
  | .null, o | .bool _, o | .int _, o | .float _, o | .text _, o | .octets _, o | .date .., o
  | .moment .., o | .again _, o => o.precedes_note _

theorem precedes_noteItems : (vs : List Value) → (o : Occurrences) → o.Precedes (noteItems vs o)
  | [], o => .refl o
  | v :: vs, o => (precedes_noteLabels v o).trans (precedes_noteItems vs _)

theorem precedes_noteEntries :
    (vs : List (Value × Value)) → (o : Occurrences) → o.Precedes (noteEntries vs o)
  | [], o => .refl o
  | (k, v) :: vs, o =>
    ((precedes_noteLabels k o).trans (precedes_noteLabels v _)).trans (precedes_noteEntries vs _)

end

/-- Has the pen written the objects that have been met and have an anchor? -/
def Follows (anchored : List Label) (o : Occurrences) (written : List Label) : Prop :=
  ∀ l, l ∈ written ↔ l ∈ o.met ∧ l ∈ anchored

/-! ## Places -/

/-- The setting that a place is for the writer. -/
def Place.setting : Place → Setting
  | .item => .item
  | .part | .entry => .entry

/-- Does the pen stand behind the marks of a value at a place? -/
structure Place.IsBehind (place : Place) (i : Nat) (marks : Marks) (pen : Pen) : Prop where
  afterBlank : pen.afterBlank = false
  inIndentation : pen.inIndentation = place.isOpen marks
  column : place.isOpen marks = true → pen.column = i + 1

/-- The pen behind an indicator of its own line. -/
def Pen.indicated (column : Nat) (written : List Label) : Pen := ⟨column + 1, false, true, written⟩

section Places

variable {place : Place} {i column : Nat} {marks : Marks} {pen : Pen} {lead : List Char}

theorem isBehind_indicated (hplace : place ≠ .entry) (column : Nat) (written : List Label) :
    place.IsBehind column .none (.indicated column written) := by
  have hopen : place.isOpen .none = true := by
    rw [Place.isOpen, bne_iff_ne.mpr hplace]
    rfl
  exact ⟨rfl, hopen.symm, fun _ => rfl⟩

theorem isBehind_written (column : Nat) (marks : Marks) (i : Nat) (written : List Label) :
    Place.entry.IsBehind i marks ⟨column, false, false, written⟩ :=
  ⟨rfl, rfl, (absurd · Bool.false_ne_true)⟩

/-- Behind the marks of a collection, what is in it starts on the same line or on the next. -/
theorem startLine_lead (hpen : place.IsBehind i marks pen)
    (hcolumn : place.isOpen marks = true → column = i + 2) :
    Ink.startLine column pen = (place.lead marks column, .fresh column pen.written) := by
  rw [Place.lead]
  split
  · next hopen =>
    obtain ⟨at', afterBlank, inIndentation, written⟩ := pen
    obtain ⟨rfl, rfl, hat⟩ := hpen
    obtain rfl : at' = i + 1 := hat hopen
    rw [hcolumn hopen, hopen, Ink.startLine_nested]
  · next hclosed =>
    exact Ink.startLine_of_written (by rw [hpen.inIndentation]; simpa using hclosed) column

theorem startLine_openingMark {written : List Label}
    (hlead : Ink.startLine column pen = (lead, .fresh column written)) (mark : Char) :
    (Ink.startLine column ++ Ink.openingMark [mark]) pen =
      (lead ++ [mark], .indicated column written) := by
  simp [Ink.append_apply, hlead, Ink.openingMark, Ink.mark, Pen.fresh, Pen.indicated]

theorem itemIndent_setting (hpen : place.IsBehind i marks pen) :
    itemIndent i place.setting pen = place.itemColumn marks i := by
  rw [itemIndent, hpen.inIndentation, Place.itemColumn, Place.isIndentless, Place.isOpen]
  cases place <;> cases marks.all.isEmpty <;> rfl

theorem innerIndent_setting (place : Place) (i : Nat) : innerIndent i place.setting = i + 2 := by
  cases place <;> rfl

theorem itemColumn_le (place : Place) (marks : Marks) (i : Nat) :
    place.itemColumn marks i ≤ place.itemColumn .none i := by
  have hnone : Marks.none.all = [] := rfl
  cases place <;> cases hmarks : marks.all <;>
    simp [Place.itemColumn, Place.isIndentless, hmarks, hnone]

end Places

/-! ## Ink and what has been met -/

/-- Does ink write characters that settle, and does the pen follow what has been met then? -/
structure Ink.Lays (ink : Ink) (anchored : List Label) (o : Occurrences) (pen : Pen)
    (chars : List Char) : Prop where
  settles : ink.Settles pen chars
  follows : Follows anchored o (ink pen).2.written

namespace Ink.Lays

variable {a b : Ink} {anchored : List Label} {o : Occurrences} {pen p : Pen}
  {chars before gap more : List Char} {column : Nat}

theorem congr (h : b.Lays anchored o p chars) (hsame : a pen = b p) : a.Lays anchored o pen chars :=
  ⟨h.settles.congr hsame, hsame ▸ h.follows⟩

theorem behind (h : b.Lays anchored o p chars) (hbefore : a pen = (before, p)) :
    (a ++ b).Lays anchored o pen (before ++ chars) := by
  refine ⟨h.settles.behind hbefore, ?_⟩
  rw [append_apply, hbefore]
  exact h.follows

/-- On the next line the writing goes on. -/
theorem below (h : b.Lays anchored o (a pen).2 (gap ++ more))
    (hgap : (a pen).1 ++ gap = chars ++ newLine column) :
    (a ++ b).Lays anchored o pen (chars ++ (newLine column ++ more)) :=
  ⟨h.settles.below hgap, h.follows⟩

end Ink.Lays

/-! ## Anchors and aliases -/

section Anchors

variable {anchored : List Label} {o : Occurrences} {place : Place} {i : Nat} {pen : Pen}
  {label : Option Label}

theorem exists_anchorOf {l : Label} (h : l ∈ anchored) : ∃ name, anchorOf anchored (some l) = some name := by
  simp [anchorOf, h]

theorem mem_of_anchorOf {l : Label} {name : String} (h : anchorOf anchored (some l) = some name) :
    l ∈ anchored := by
  simp only [anchorOf, Option.bind_eq_bind, Option.bind_some, Option.ite_none_right_eq_some,
    List.contains_iff_mem] at h
  exact h.1

/-- A value that has not been met is written under its anchor, if it gets one. -/
theorem exists_anchoredInk (hfollows : Follows anchored o pen.written)
    (hnew : ∀ l, label = some l → l ∉ o.met) : ∃ written,
      Follows anchored (o.note label).2 written ∧
        ∀ body : Ink, anchoredInk anchored label body pen =
          (anchorInk (anchorOf anchored label) ++ body) { pen with written } := by
  cases label with
  | none => exact ⟨pen.written, hfollows, fun body => (congrFun (Ink.none_append body) pen).symm⟩
  | some l =>
    have hnote : (o.note (some l)).2 = { o with met := l :: o.met } := by
      simp [Occurrences.note, hnew l rfl]
    rw [hnote]
    cases hname : anchorOf anchored (some l) with
    | none =>
      have hother : ∀ l', l' ∈ anchored → l' ≠ l := by
        rintro l' hl' rfl
        obtain ⟨name, hsome⟩ := exists_anchorOf hl'
        rw [hname] at hsome
        cases hsome
      refine ⟨pen.written, fun l' => ?_, fun body => ?_⟩
      · rw [hfollows l', List.mem_cons]
        constructor
        · exact fun h => ⟨.inr h.1, h.2⟩
        · exact fun h => ⟨h.1.resolve_left (hother l' h.2), h.2⟩
      · have hbody : anchoredInk anchored (some l) body pen = body pen := by
          simp only [anchoredInk, hname]
        exact hbody.trans (congrFun (Ink.none_append body) pen).symm
    | some name =>
      have hunwritten : pen.written.contains l = false := by
        rw [← Bool.not_eq_true, List.contains_iff_mem, hfollows l]
        exact fun h => hnew l rfl h.1
      have hanchor : anchorInk (some name) = Ink.mark ('&' :: name.toList) true := Ink.append_none _
      refine ⟨l :: pen.written, fun l' => ?_, fun body => ?_⟩
      · rw [List.mem_cons, List.mem_cons, hfollows l']
        constructor
        · rintro (rfl | h)
          · exact ⟨.inl rfl, mem_of_anchorOf hname⟩
          · exact ⟨.inr h.1, h.2⟩
        · rintro ⟨rfl | h, hmem⟩
          · exact .inl rfl
          · exact .inr ⟨h, hmem⟩
      · simp only [anchoredInk, hname, hunwritten, Bool.false_eq_true, ↓reduceIte, hanchor]

/-- What is known of an object that has been met: it has an anchor, and is written as an alias. -/
theorem exists_alias {v : Value} {l : Label} (hlabel : labelOf v = some l) (hmet : l ∈ o.met)
    (hfollows : Follows anchored o pen.written)
    (hagain : ∀ l ∈ (noteLabels v o).again, l ∈ anchored) (body : Ink) :
    ∃ name, anchorOf anchored (some l) = some name ∧
      anchoredInk anchored (labelOf v) body pen = Ink.mark ('*' :: name.toList) true pen ∧
      (Written.alias name.toList).Shows anchored o v ∧ Follows anchored (noteLabels v o) pen.written := by
  rw [noteLabels_of_met hlabel hmet] at hagain ⊢
  have hanchored : l ∈ anchored := hagain l (Occurrences.again_note_of_met hmet)
  obtain ⟨name, hname⟩ := exists_anchorOf hanchored
  have hwritten : pen.written.contains l = true := List.contains_iff_mem.mpr ((hfollows l).mpr ⟨hmet, hanchored⟩)
  refine ⟨name, hname, ?_, ?_, fun l' => ?_⟩
  · rw [hlabel]
    simp only [anchoredInk, hname, hwritten, ↓reduceIte]
  · exact Written.shows_alias hlabel hmet (by rw [String.ofList_toList, hname])
  · rw [met_note_of_met hmet]
    exact hfollows l'

end Anchors

/-! ## What is proved of every value -/

/-- At a place a value is written so that it can be read, and what is written shows it, whatever has been
met before, as long as that has the objects of the path. -/
def IsWritten (anchored path : List Label) (i : Nat) (place : Place) (v : Value) : Prop :=
  ∀ (o : Occurrences) (pen : Pen), place.IsBehind i .none pen → Follows anchored o pen.written →
    (∀ l ∈ path, l ∈ o.met) → (∀ l ∈ (noteLabels v o).again, l ∈ anchored) →
    ∃ w : Written, w.Shows anchored o v ∧ w.IsReadable i place ∧
      (valueInk anchored i place.setting false v).Lays anchored (noteLabels v o) pen (w.chars i place)

section Written

variable {anchored path : List Label} {o : Occurrences} {place : Place} {i : Nat} {pen : Pen}
  {v : Value}

theorem valueInk_scalar {tag text : String} {asLines : Bool} (h : scalarForm v = some (tag, text, asLines))
    (i : Nat) (setting : Setting) (simpleKey : Bool) : valueInk anchored i setting simpleKey v =
      anchoredInk anchored (labelOf v) (scalarInk (i + 2) simpleKey tag text asLines) := by
  cases v <;> simp only [scalarForm, Option.some.injEq, Prod.mk.injEq, reduceCtorEq] at h <;>
    obtain ⟨rfl, rfl, rfl⟩ := h <;> simp only [valueInk, scalarForm]

/-- All that is written of a value may be an alias. -/
theorem exists_valueInk (anchored : List Label) (i : Nat) (setting : Setting) (simpleKey : Bool) (v : Value) :
    ∃ body, valueInk anchored i setting simpleKey v = anchoredInk anchored (labelOf v) body := by
  cases v with
  | list | pair | set | map | again => exact ⟨_, by rw [valueInk]; rfl⟩
  | _ => exact ⟨_, valueInk_scalar rfl i setting simpleKey⟩

/-- A value that has been met is written as an alias. -/
theorem isWritten_of_met {l : Label} (hlabel : labelOf v = some l) (hmet : l ∈ o.met)
    (hpen : place.IsBehind i .none pen) (hfollows : Follows anchored o pen.written)
    (hagain : ∀ l ∈ (noteLabels v o).again, l ∈ anchored) :
    ∃ w : Written, w.Shows anchored o v ∧ w.IsReadable i place ∧
      (valueInk anchored i place.setting false v).Lays anchored (noteLabels v o) pen
        (w.chars i place) := by
  obtain ⟨body, hink⟩ := exists_valueInk anchored i place.setting false v
  obtain ⟨name, hname, hchars, hshows, hfollows'⟩ := exists_alias hlabel hmet hfollows hagain body
  obtain ⟨hword, column, hafter⟩ := Ink.writes_mark pen ('*' :: name.toList)
  rw [hpen.afterBlank, if_neg Bool.false_ne_true] at hword
  refine ⟨.alias name.toList, hshows, isReadable_anchorOf hname, ⟨?_, ?_⟩⟩
  · rw [hink]
    exact Ink.settles_of_written ((congrArg Prod.fst hchars).trans hword) (by rw [hchars, hafter])
  · rw [hink, hchars, hafter]
    exact hfollows'

/-- What is proved of values that have not been met is true of all, because the others are aliases. -/
theorem isWritten_of_new {v : Value}
    (h : ∀ (o : Occurrences) (pen : Pen), place.IsBehind i .none pen → Follows anchored o pen.written →
      (∀ l, labelOf v = some l → l ∉ o.met) → (∀ l ∈ path, l ∈ o.met) →
      (∀ l ∈ (noteLabels v o).again, l ∈ anchored) →
      ∃ w : Written, w.Shows anchored o v ∧ w.IsReadable i place ∧
        (valueInk anchored i place.setting false v).Lays anchored (noteLabels v o) pen
          (w.chars i place)) : IsWritten anchored path i place v := by
  intro o pen hpen hfollows hpath hagain
  by_cases hmet : ∃ l, labelOf v = some l ∧ l ∈ o.met
  · obtain ⟨l, hlabel, hmet⟩ := hmet
    exact isWritten_of_met hlabel hmet hpen hfollows hagain
  · exact h o pen hpen hfollows (fun l hl hmem => hmet ⟨l, hl, hmem⟩) hpath hagain

/-- What is behind the marks of a value that has not been met makes up the value. -/
theorem exists_behindMarks {label : Option Label} (marks : Marks) (marksInk : Ink)
    (hpen : place.IsBehind i .none pen) (hfollows : Follows anchored o pen.written)
    (hnew : ∀ l, label = some l → l ∉ o.met)
    (hmarks : anchorInk (anchorOf anchored label) ++ marksInk = Ink.marks marks.all) :
    ∃ p, place.IsBehind i marks p ∧ Follows anchored (o.note label).2 p.written ∧
      ∀ (body : Ink) {chars : List Char} {o' : Occurrences}, body.Lays anchored o' p chars →
        (anchoredInk anchored label (marksInk ++ body)).Lays anchored o' pen (marks.chars ++ chars) := by
  obtain ⟨written, hfollows', hanchored⟩ := exists_anchoredInk hfollows hnew
  have hbefore : ({ pen with written } : Pen).afterBlank = false := hpen.afterBlank
  obtain ⟨p, hink, hafter, hwritten, hnone, hsome⟩ := Ink.exists_marks marks.all hbefore
  refine ⟨p, ⟨hafter, ?_, fun hopen => ?_⟩, hwritten ▸ hfollows', fun body chars o' hbody => ?_⟩
  · by_cases hall : marks.all = []
    · rw [hnone hall, Place.isOpen, hall]
      exact hpen.inIndentation
    · rw [hsome hall, Place.isOpen, List.isEmpty_eq_false_iff.mpr hall, Bool.and_false]
  · have hall : marks.all = [] := by
      rw [Place.isOpen, Bool.and_eq_true, List.isEmpty_iff] at hopen
      exact hopen.2
    rw [hnone hall]
    refine hpen.column ?_
    rw [Place.isOpen, hall] at hopen
    exact hopen
  · have hlays : (Ink.marks marks.all ++ body).Lays anchored o' { pen with written } _ :=
      hbody.behind hink
    refine hlays.congr ?_
    rw [hanchored, ← Ink.append_assoc, hmarks]

end Written

/-! ## Scalars -/

section Scalars

variable {anchored path : List Label} {o : Occurrences} {place : Place} {i column : Nat} {v k : Value}
  {tag text : String} {asLines : Bool} {written : List Label}

theorem isWritten_scalar (h : scalarForm v = some (tag, text, asLines)) (hback : ComesBack v)
    (hfits : Fits i place v) : IsWritten anchored path i place v := by
  refine isWritten_of_new fun o pen hpen hfollows hnew _ _ => ?_
  have hspell : IsSpellable tag text asLines false (i + 2) :=
    isSpellable_of_comesBack h hback fun _ htag => hfits.textFits h htag
  obtain ⟨written, hfollows', hink⟩ := exists_anchoredInk hfollows hnew
  have hbefore : ({ pen with written } : Pen).afterBlank = false := hpen.afterBlank
  obtain ⟨column, hsettles, hwritten⟩ :=
    exists_settles_scalar (anchorOf anchored (labelOf v)) hspell hbefore
  refine ⟨_, shows_writtenScalar h hnew false (i + 2) column,
    isReadable_writtenScalar (isScalarTag_of_scalarForm h) hspell column place, ?_⟩
  rw [valueInk_scalar h, noteLabels_of_scalarForm h, chars_writtenScalar]
  refine Ink.Lays.congr ⟨hsettles, ?_⟩ (hink _)
  rw [hwritten]
  exact hfollows'

/-! ### Keys -/

theorem length_shown_le {text : List Char} (h : ∀ c ∈ text, TakesColumn c) :
    (Ink.shown text).length ≤ 2 * text.length := by
  induction text with
  | nil => exact Nat.le_refl _
  | cons c text ih =>
    rw [List.forall_mem_cons] at h
    have hc : (if Ink.isVisible c then [c] else Ink.escape c).length ≤ 2 := by
      split
      · exact Nat.le_succ 1
      · next hhidden =>
        have hquote : c = '"' ∨ c = '\\' := by
          have hrange : (' ' ≤ c && c ≤ '~') = true := by
            simp only [Bool.and_eq_true, decide_eq_true_eq]
            exact h.1
          simpa [Ink.isVisible, hrange, or_iff_not_imp_left] using hhidden
        rcases hquote with rfl | rfl <;> decide
    have hmore := ih h.2
    rw [Ink.shown, List.flatMap_cons, List.length_append, List.length_cons, ← Ink.shown]
    omega

/-- A key in front of its colon that is no alias is short, on one line, and no block. -/
theorem bounds_of_isSimpleKey {pen : Pen} (h : scalarForm k = some (tag, text, asLines))
    (hnew : (labelOf k).any pen.written.contains = false) (hsimple : isSimpleKey anchored pen k = true) :
    ((anchorOf anchored (labelOf k)).map (·.length)).getD 0 + (shortTag tag).length + text.length < 128 ∧
      asLines = false ∧ ∀ c ∈ text.toList, c ≠ '\n' := by
  simp only [isSimpleKey, hnew, Bool.and_false, Bool.false_eq_true, ↓reduceIte, h, Bool.and_eq_true,
    decide_eq_true_eq, Bool.not_eq_true', List.any_eq_false] at hsimple
  obtain ⟨⟨hshort, hsome⟩, hbreaks⟩ := hsimple
  have hline : ∀ c ∈ text.toList, c ≠ '\n' := by
    rintro c hc rfl
    exact hbreaks _ hc rfl
  refine ⟨hshort, ?_, hline⟩
  rw [← Bool.not_eq_true]
  rintro rfl
  obtain ⟨rows, -, htext⟩ := exists_rows_of_scalarForm h
  cases rows with
  | nil =>
    have hempty : text = "" := String.toList_eq_nil_iff.mp htext
    rw [hempty] at hsome
    cases hsome
  | cons row rows => exact hline '\n' (by rw [htext]; simp [rowsText]) rfl

/-- Marks are not longer than the anchor and the tag. -/
theorem length_chars_scalarMarks_le (anchor : Option String) (tag : String) (style : ScalarStyle) :
    (scalarMarks anchor tag style).chars.length ≤
      (anchor.map (·.length)).getD 0 + (shortTag tag).length + 3 := by
  have htag : ((if writesTag tag style then some (tag.toList.drop (Tag.standard "").length)
      else none).toList.map Mark.tag |>.flatMap fun mark => ' ' :: mark.chars).length ≤
        (shortTag tag).length + 1 := by
    split
    · simp [Mark.chars, shortTag]
    · simp
  have hanchor : ((anchor.map String.toList).toList.map Mark.anchor |>.flatMap fun mark =>
      ' ' :: mark.chars).length ≤ (anchor.map (·.length)).getD 0 + 2 := by
    cases anchor <;> simp [Mark.chars, String.length_toList]
  rw [scalarMarks, Marks.chars, Marks.all, List.flatMap_append, List.length_append]
  exact (Nat.add_le_add hanchor htag).trans (by omega)

/-- A key that is a text has no marks, and its escapes are short enough. -/
theorem KeyFits.textKey {pen : Pen} (h : KeyFits column k) (hform : scalarForm k = some (tag, text, asLines))
    (htag : tag = Tag.text) (hsimple : isSimpleKey anchored pen k = true) (style : ScalarStyle) :
    (scalarMarks (anchorOf anchored (labelOf k)) tag style).chars = [] ∧
      (Ink.shown text.toList).length ≤ 1022 := by
  cases k with
  | text s =>
    cases hform
    rw [isSimpleKey_of_unlabelled rfl] at hsimple
    rw [KeyFits, if_pos hsimple] at h
    refine ⟨?_, h⟩
    have hwrites : writesTag Tag.text style = false := by simp [writesTag]
    simp only [scalarMarks, hwrites, Bool.false_eq_true, ↓reduceIte]
    rfl
  | null | bool | int | float | octets | date | moment =>
    cases hform
    exact absurd htag (by decide)
  | list | pair | set | map | again => cases hform

/-- A scalar that is short enough can be a key in front of its colon. -/
theorem isSimpleKey_writtenScalar {pen : Pen} (h : scalarForm k = some (tag, text, false))
    (hback : ComesBack k) (hfits : KeyFits column k)
    (hnew : (labelOf k).any pen.written.contains = false) (hsimple : isSimpleKey anchored pen k = true)
    (hspell : IsSpellable tag text false true (column + 2)) (from' : Nat) :
    (writtenScalar (anchorOf anchored (labelOf k)) tag text false true (column + 2) from').IsSimpleKey := by
  obtain ⟨hshort, -, hline⟩ := bounds_of_isSimpleKey h hnew hsimple
  have hstyle := styleOf_ne_literal tag text true
  have hspells := spells_spelling hspell from'
  refine ⟨by simp [writtenScalar, Written.words], ?_, ?_⟩
  · simp only [writtenScalar, Written.words, List.mem_append, List.mem_map, List.mem_singleton]
    rintro word (⟨mark, hmark, rfl⟩ | rfl) ch hch
    · exact mark.takesColumn (isReadable_scalarMarks (isScalarTag_of_scalarForm h) _ mark hmark) ch hch
    · exact (hspells.onPage ch hch).resolve_left (Ink.newline_not_mem_spelling hstyle hline ch hch)
  · have hlength := Ink.length_spelling_le hstyle (column + 2) from' hline
    have hmarks := length_chars_scalarMarks_le (anchorOf anchored (labelOf k)) tag
      (styleOf tag text false true)
    rw [lineChars_writtenScalar, List.length_append, List.length_cons, Bool.not_true]
    by_cases htag : tag = Tag.text
    · obtain ⟨hmarks, hshown⟩ := hfits.textKey h htag hsimple (styleOf tag text false true)
      rw [String.length_toList] at hlength
      rw [hmarks, List.length_nil]
      omega
    · have hshown := length_shown_le (hback.takesColumn h htag)
      rw [String.length_toList] at hlength hshown
      omega

/-- An alias in front of its colon is short. -/
theorem isSimpleKey_alias {name : String} {l : Label} (hlabel : labelOf k = some l)
    (hname : anchorOf anchored (some l) = some name) (hwritten : written.contains l = true)
    (hsimple : isSimpleKey anchored (.fresh column written) k = true) :
    (Written.alias name.toList).IsSimpleKey := by
  have hshort : name.length < 128 := by
    have hany : (labelOf k).any (Pen.fresh column written).written.contains = true := by
      rw [hlabel]
      exact hwritten
    have hanchor : anchorOf anchored (labelOf k) = some name := hlabel ▸ hname
    simp only [isSimpleKey, hany, hanchor, Option.isSome_some, Bool.and_self, ↓reduceIte,
      Option.map_some, Option.getD_some, decide_eq_true_eq] at hsimple
    exact hsimple
  have hreadable := isReadable_anchorOf hname
  refine ⟨by simp [Written.words], ?_, ?_⟩
  · simp only [Written.words, List.forall_mem_singleton, List.forall_mem_cons]
    exact ⟨by decide, fun ch hch => takesColumn_of_isNameChar (hreadable.2 ch hch)⟩
  · simp only [Written.words, Written.lineChars, List.flatMap_cons, List.flatMap_nil, List.append_nil,
      List.length_cons, String.length_toList]
    omega

/-- **A key on its line**, with the colon behind it. -/
theorem exists_simpleKey (h : scalarForm k = some (tag, text, asLines)) (hback : ComesBack k)
    (hfits : KeyFits column k) (hsimple : isSimpleKey anchored (.fresh column written) k = true)
    (hfollows : Follows anchored o written) (hagain : ∀ l ∈ (noteLabels k o).again, l ∈ anchored) :
    ∃ (w : Written) (last : Nat) (written' : List Label),
      w.Shows anchored o k ∧ w.IsReadable column .part ∧ w.IsSimpleKey ∧
      (valueInk anchored column .entry true k ++ Ink.mark [':'] false) (.fresh column written) =
        ((Written.lineChars w.words).tail ++ [':'], ⟨last, false, false, written'⟩) ∧
      Follows anchored (noteLabels k o) written' := by
  have hfollowsPen : Follows anchored o (Pen.fresh column written).written := hfollows
  by_cases hmet : ∃ l, labelOf k = some l ∧ l ∈ o.met
  · obtain ⟨l, hlabel, hmet⟩ := hmet
    obtain ⟨name, hname, hink, hshows, hfollows'⟩ := exists_alias hlabel hmet hfollowsPen hagain
      (scalarInk (column + 2) true tag text asLines)
    have hwritten : written.contains l = true :=
      List.contains_iff_mem.mpr ((hfollows l).mpr ⟨hmet, mem_of_anchorOf hname⟩)
    refine ⟨.alias name.toList, column + (name.toList.length + 1) + 1, written, hshows, isReadable_anchorOf hname,
      isSimpleKey_alias hlabel hname hwritten hsimple, ?_, hfollows'⟩
    rw [valueInk_scalar h, Ink.append_apply, hink]
    simp [Ink.mark, Pen.fresh, Written.words, Written.lineChars]
  · have hnew : ∀ l, labelOf k = some l → l ∉ o.met := fun l hl hmem => hmet ⟨l, hl, hmem⟩
    have hunwritten : (labelOf k).any written.contains = false := by
      rw [Option.any_eq_false]
      intro l hl
      rw [← Bool.not_eq_true, List.contains_iff_mem, hfollows l]
      exact fun h => hnew l hl h.1
    obtain ⟨-, rfl, -⟩ := bounds_of_isSimpleKey h hunwritten hsimple
    have hspell : IsSpellable tag text false true (column + 2) :=
      isSpellable_of_comesBack h hback fun hkey => absurd hkey (by decide)
    obtain ⟨written', hfollows', hink⟩ := exists_anchoredInk hfollowsPen hnew
    obtain ⟨from', hchars, last, hlast⟩ := exists_writes_scalar (anchorOf anchored (labelOf k)) hspell
      (styleOf_ne_literal tag text true) (.fresh column written')
    refine ⟨_, last + 1, written', shows_writtenScalar h hnew true (column + 2) from',
      isReadable_writtenScalar (isScalarTag_of_scalarForm h) hspell from' .part,
      isSimpleKey_writtenScalar h hback hfits hunwritten hsimple hspell from', ?_, ?_⟩
    · rw [valueInk_scalar h, Ink.append_apply, hink]
      have hpen : ({ Pen.fresh column written with written := written' } : Pen) =
          .fresh column written' := rfl
      rw [hpen, hlast, hchars]
      rfl
    · rw [noteLabels_of_scalarForm h]
      exact hfollows'

end Scalars

/-! ## Items and entries -/

section Blocks

variable {anchored path : List Label} {o : Occurrences} {column : Nat} {pen : Pen} {lead : List Char}

/-- Items are written one below the other. -/
theorem exists_itemsInk {vs : List Value} (hsome : vs ≠ [])
    (h : ∀ v ∈ vs, IsWritten anchored path column .item v)
    (hlead : Ink.startLine column pen = (lead, .fresh column pen.written))
    (hfollows : Follows anchored o pen.written) (hpath : ∀ l ∈ path, l ∈ o.met)
    (hagain : ∀ l ∈ (noteItems vs o).again, l ∈ anchored) :
    ∃ ws : List Written, ws ≠ [] ∧ Written.showItems anchored o ws vs ∧
      Written.areReadable column ws ∧
      (itemsInk anchored column vs).Lays anchored (noteItems vs o) pen
        (Written.itemChars lead column ws) := by
  induction vs generalizing o pen lead with
  | nil => exact absurd rfl hsome
  | cons v vs ih =>
    rw [List.forall_mem_cons] at h
    have hrest := precedes_noteItems vs (noteLabels v o)
    obtain ⟨w, hshows, hread, hlays⟩ := h.1 o _ (isBehind_indicated (by decide) column pen.written)
      hfollows hpath fun l hl => hagain l (hrest.again l hl)
    have hitem : (itemInk column (valueInk anchored column .item false v)).Lays anchored
        (noteLabels v o) pen _ := hlays.behind (startLine_openingMark hlead '-')
    by_cases hvs : vs = []
    · subst hvs
      refine ⟨[w], List.cons_ne_nil _ _, Written.showItems_cons hshows (Written.showItems_nil _ _),
        ⟨hread, trivial⟩, ?_⟩
      rw [itemsInk, itemsInk, Ink.append_none]
      simpa [Written.itemChars, noteItems] using hitem
    · obtain ⟨gap, hgap, hchars⟩ := hitem.settles column
      have hmet := precedes_noteLabels v o
      obtain ⟨ws, hws, hshows', hread', hmore⟩ := ih hvs h.2 hgap hitem.follows
        (fun l hl => hmet.met l (hpath l hl)) hagain
      refine ⟨w :: ws, List.cons_ne_nil _ _, Written.showItems_cons hshows hshows', ⟨hread, hread'⟩, ?_⟩
      obtain ⟨w', ws, rfl⟩ := List.exists_cons_of_ne_nil hws
      rw [Written.itemChars] at hmore
      have hall := hmore.below hchars
      rw [itemsInk]
      simpa [Written.itemChars, noteItems] using hall

/-- One entry. -/
theorem exists_entryInk {k v : Value} (hk : k.IsScalar) (hback : ComesBack k)
    (hkey : KeyFits column k) (hfits : Fits column (valuePlace k) v)
    (h : ∀ place, Fits column place v → IsWritten anchored path column place v)
    (hlead : Ink.startLine column pen = (lead, .fresh column pen.written))
    (hfollows : Follows anchored o pen.written) (hpath : ∀ l ∈ path, l ∈ o.met)
    (hagain : ∀ l ∈ (noteLabels v (noteLabels k o)).again, l ∈ anchored) :
    ∃ (isSimple : Bool) (wk wv : Written), wk.Shows anchored o k ∧
      wv.Shows anchored (noteLabels k o) v ∧
      Written.areReadableEntries column [(isSimple, wk, wv)] ∧
      (entryInk anchored column k (valueInk anchored column .entry true k)
        (valueInk anchored column .entry false k) (valueInk anchored column .entry false v)).Lays
          anchored (noteLabels v (noteLabels k o)) pen
          (lead ++ Written.entryLine column (isSimple, wk, wv)) := by
  have ⟨tag, text, asLines, hform, _⟩ := hback
  have hagainKey : ∀ l ∈ (noteLabels k o).again, l ∈ anchored := fun l hl =>
    hagain l ((precedes_noteLabels v _).again l hl)
  have hpathValue : ∀ l ∈ path, l ∈ (noteLabels k o).met := fun l hl =>
    (precedes_noteLabels k o).met l (hpath l hl)
  have hwritten := h _ (hfits.of_valuePlace anchored (.fresh column pen.written))
  cases hsimple : isSimpleKey anchored (.fresh column pen.written) k with
  | true =>
    rw [hsimple, if_pos rfl] at hwritten
    obtain ⟨wk, last, written, hshowsKey, hreadKey, hsimpleKey, hink, hfollowsKey⟩ :=
      exists_simpleKey hform hback hkey hsimple hfollows hagainKey
    obtain ⟨wv, hshows, hread, hlays⟩ :=
      hwritten (noteLabels k o) _ (isBehind_written last .none column written) hfollowsKey hpathValue hagain
    refine ⟨true, wk, wv, hshowsKey, hshows, ⟨hreadKey, fun _ => hsimpleKey, hread, trivial⟩, ?_⟩
    refine Ink.Lays.behind ?_ hlead
    have hall : (valueInk anchored column .entry true k ++ Ink.mark [':'] false ++
        valueInk anchored column .entry false v).Lays anchored _ (.fresh column pen.written) _ :=
      hlays.behind hink
    refine Ink.Lays.congr (b := valueInk anchored column .entry true k ++ Ink.mark [':'] false ++
      valueInk anchored column .entry false v) ?_ (congrFun (if_pos hsimple) _)
    simpa [Written.entryLine] using hall
  | false =>
    rw [hsimple, if_neg Bool.false_ne_true] at hwritten
    obtain ⟨wk, hshowsKey, hreadKey, hlaysKey⟩ :=
      isWritten_scalar hform hback (hkey.fits hk hsimple) o _
        (isBehind_indicated (by decide) column pen.written) hfollows hpath hagainKey
    have hmark : Ink.openingMark ['?'] (.fresh column pen.written) =
        (['?'], .indicated column pen.written) := by
      simp [Ink.openingMark, Ink.mark, Pen.fresh, Pen.indicated]
    have hbehind : (Ink.openingMark ['?'] ++ valueInk anchored column .entry false k).Lays anchored
        (noteLabels k o) (.fresh column pen.written) _ := hlaysKey.behind hmark
    obtain ⟨gap, hgap, hchars⟩ := hbehind.settles column
    obtain ⟨wv, hshows, hread, hlays⟩ := hwritten (noteLabels k o) _
      (isBehind_indicated (by decide) column _) hbehind.follows hpathValue hagain
    refine ⟨false, wk, wv, hshowsKey, hshows, ⟨hreadKey, (absurd · Bool.false_ne_true), hread, trivial⟩, ?_⟩
    refine Ink.Lays.behind ?_ hlead
    have hvalue : (Ink.startLine column ++ Ink.openingMark [':'] ++
        valueInk anchored column .entry false v).Lays anchored _ _ _ :=
      hlays.behind (startLine_openingMark hgap ':')
    rw [List.append_assoc] at hvalue
    have hall := hvalue.below hchars
    refine Ink.Lays.congr (b := Ink.openingMark ['?'] ++ valueInk anchored column .entry false k ++
      Ink.startLine column ++ Ink.openingMark [':'] ++ valueInk anchored column .entry false v) ?_
      (congrFun (if_neg (by rw [hsimple]; exact Bool.false_ne_true)) _)
    simpa [Written.entryLine, Ink.append_assoc] using hall

/-- Entries are written one below the other. -/
theorem exists_entriesInk {vs : List (Value × Value)} (hsome : vs ≠ [])
    (hkeys : ∀ e ∈ vs, e.1.IsScalar ∧ ComesBack e.1) (hfits : entriesFit column vs)
    (h : ∀ e ∈ vs, ∀ place, Fits column place e.2 → IsWritten anchored path column place e.2)
    (hlead : Ink.startLine column pen = (lead, .fresh column pen.written))
    (hfollows : Follows anchored o pen.written) (hpath : ∀ l ∈ path, l ∈ o.met)
    (hagain : ∀ l ∈ (noteEntries vs o).again, l ∈ anchored) :
    ∃ entries : List (Bool × Written × Written), entries ≠ [] ∧
      Written.showEntries anchored o entries vs ∧ Written.areReadableEntries column entries ∧
      (entriesInk anchored column vs).Lays anchored (noteEntries vs o) pen
        (Written.entryChars lead column entries) := by
  induction vs generalizing o pen lead with
  | nil => exact absurd rfl hsome
  | cons e vs ih =>
    obtain ⟨k, v⟩ := e
    rw [List.forall_mem_cons] at h hkeys
    obtain ⟨hkey, hvalue, hrestFits⟩ := hfits
    have hrest := precedes_noteEntries vs (noteLabels v (noteLabels k o))
    obtain ⟨isSimple, wk, wv, hshowsKey, hshows, ⟨hreadKey, hsimple, hread, -⟩, hentry⟩ :=
      exists_entryInk hkeys.1.1 hkeys.1.2 hkey hvalue h.1 hlead hfollows hpath
        fun l hl => hagain l (hrest.again l hl)
    by_cases hvs : vs = []
    · subst hvs
      refine ⟨[(isSimple, wk, wv)], List.cons_ne_nil _ _,
        Written.showEntries_cons hshowsKey hshows (Written.showEntries_nil _ _),
        ⟨hreadKey, hsimple, hread, trivial⟩, ?_⟩
      rw [entriesInk, entriesInk, Ink.append_none, Written.entryChars_cons]
      simpa [Written.entryChars, noteEntries] using hentry
    · obtain ⟨gap, hgap, hchars⟩ := hentry.settles column
      have hmet := (precedes_noteLabels k o).trans (precedes_noteLabels v (noteLabels k o))
      obtain ⟨entries, hentries, hshows', hread', hmore⟩ := ih hvs hkeys.2 hrestFits h.2 hgap
        hentry.follows (fun l hl => hmet.met l (hpath l hl)) hagain
      refine ⟨(isSimple, wk, wv) :: entries, List.cons_ne_nil _ _,
        Written.showEntries_cons hshowsKey hshows hshows', ⟨hreadKey, hsimple, hread, hread'⟩, ?_⟩
      obtain ⟨e, entries, rfl⟩ := List.exists_cons_of_ne_nil hentries
      rw [Written.entryChars_cons] at hmore
      have hall := hmore.below hchars
      rw [entriesInk, Written.entryChars_cons, Written.entryChars_cons]
      simpa [noteEntries] using hall

end Blocks

/-! ## Collections -/

section Collections

variable {anchored path : List Label} {i : Nat} {place : Place} {label : Option Label}

theorem lays_emptyInk {o : Occurrences} {marks : Marks} (opening closing : Char) {pen : Pen}
    (hpen : place.IsBehind i marks pen) (hfollows : Follows anchored o pen.written) :
    (emptyInk opening closing).Lays anchored o pen [' ', opening, closing] := by
  have hink : emptyInk opening closing pen =
      ([' ', opening, closing], ⟨pen.column + 3, false, false, pen.written⟩) := by
    simp [emptyInk, Ink.append_apply, Ink.spacedMark, Ink.mark, hpen.afterBlank]
  refine ⟨Ink.settles_of_written (congrArg Prod.fst hink) (by rw [hink]), ?_⟩
  rw [hink]
  exact hfollows

/-- The marks of a collection: its anchor, and the tag of a set. -/
def collectionMarks (anchor : Option String) (tag : Option (List Char)) : Marks :=
  ⟨anchor.map String.toList, tag⟩

theorem anchor_collectionMarks (anchor : Option String) (tag : Option (List Char)) :
    (collectionMarks anchor tag).anchor.map String.ofList = anchor := by
  cases anchor <;> simp [collectionMarks]

theorem isReadable_collectionMarks (anchored : List Label) (label : Option Label) {tag : Option (List Char)}
    (htag : ∀ name, tag = some name → Lexer.IsTagName name) :
    ∀ mark ∈ (collectionMarks (anchorOf anchored label) tag).all, mark.IsReadable := by
  simp only [collectionMarks, Marks.all, List.forall_mem_append, List.forall_mem_map, Option.mem_toList,
    Option.map_eq_some_iff]
  constructor
  · rintro _ ⟨name, hname, rfl⟩
    exact isReadable_anchorOf hname
  · exact fun name hname => htag name hname

/-- Inside a collection its label has been met as well. -/
theorem forall_met_note {o : Occurrences} (h : ∀ l ∈ path, l ∈ o.met) :
    ∀ l ∈ label.toList ++ path, l ∈ (o.note label).2.met := by
  intro l hl
  rcases List.mem_append.mp hl with hl | hl
  · obtain rfl := Option.mem_toList.mp hl
    exact o.met_note l
  · exact (o.precedes_note label).met l (h l hl)

/-- What a list is written as at the column of its items. -/
theorem isWritten_list {vs : List Value}
    (h : ∀ column ≤ place.itemColumn .none i, ∀ v ∈ vs,
      IsWritten anchored (label.toList ++ path) column .item v) :
    IsWritten anchored path i place (.list label vs) := by
  refine isWritten_of_new fun o pen hpen hfollows hnew hpath hagain => ?_
  have hnew' : ∀ l, label = some l → l ∉ o.met := hnew
  rw [noteLabels_list hnew'] at hagain ⊢
  obtain ⟨p, hbehind, hfollows', hbody⟩ := exists_behindMarks
    (collectionMarks (anchorOf anchored label) none) .none hpen hfollows hnew'
    (by rw [Ink.append_none]; simp [anchorInk, collectionMarks, Marks.all])
  have hanchor := anchor_collectionMarks (anchorOf anchored label) none
  have hnoTag : ∀ name, (none : Option (List Char)) = some name → Lexer.IsTagName name :=
    fun name hname => absurd hname.symm (Option.some_ne_none name)
  have hmarks := isReadable_collectionMarks anchored label hnoTag
  by_cases hvs : vs = []
  · subst hvs
    refine ⟨.list _ [], Written.shows_list hanchor rfl hnew' (Written.showItems_nil _ _),
      ⟨hmarks, trivial⟩, ?_⟩
    have hlays := hbody _ (lays_emptyInk '[' ']' hbehind hfollows')
    rw [Ink.none_append] at hlays
    rw [valueInk]
    exact hlays
  · obtain ⟨ws, hws, hshows, hread, hlays⟩ := exists_itemsInk hvs
      (h _ (itemColumn_le place (collectionMarks (anchorOf anchored label) none) i))
      (startLine_lead hbehind (Place.itemColumn_of_isOpen i)) hfollows' (forall_met_note hpath) hagain
    refine ⟨.list _ ws, Written.shows_list hanchor rfl hnew' hshows, ⟨hmarks, hread⟩, ?_⟩
    have hempty : vs.isEmpty = false := by simpa using hvs
    have hempty' : ws.isEmpty = false := by simpa using hws
    have hchosen := hbody (Ink.choose fun pen => itemsInk anchored (itemIndent i place.setting pen) vs)
      (hlays.congr (by rw [← itemIndent_setting hbehind]; rfl))
    rw [Ink.none_append] at hchosen
    rw [valueInk, hempty, if_neg Bool.false_ne_true, Written.chars, hempty',
      if_neg Bool.false_ne_true]
    exact hchosen

/-- What a map, or a set, is written as at the column of its entries. -/
theorem exists_mapping {vs : List (Value × Value)} {o : Occurrences} {pen : Pen} (tag : Option String)
    (name : Option (List Char)) (hkeys : ∀ e ∈ vs, e.1.IsScalar ∧ ComesBack e.1)
    (hfits : entriesFit (i + 2) vs)
    (h : ∀ e ∈ vs, ∀ place, Fits (i + 2) place e.2 →
      IsWritten anchored (label.toList ++ path) (i + 2) place e.2)
    (hpen : place.IsBehind i .none pen) (hfollows : Follows anchored o pen.written)
    (hnew : ∀ l, label = some l → l ∉ o.met) (hpath : ∀ l ∈ path, l ∈ o.met)
    (hagain : ∀ l ∈ (noteEntries vs (o.note label).2).again, l ∈ anchored)
    (htag : tagInk tag = Ink.marks (name.toList.map Mark.tag))
    (hname : ∀ n, name = some n → Lexer.IsTagName n) :
    ∃ entries, Written.showEntries anchored (o.note label).2 entries vs ∧
      (Written.map (collectionMarks (anchorOf anchored label) name) entries).IsReadable i place ∧
      (anchoredInk anchored label (tagInk tag ++
        if vs.isEmpty then emptyInk '\x7b' '\x7d' else entriesInk anchored (i + 2) vs)).Lays anchored
          (noteEntries vs (o.note label).2) pen
          ((Written.map (collectionMarks (anchorOf anchored label) name) entries).chars i place) := by
  obtain ⟨p, hbehind, hfollows', hbody⟩ := exists_behindMarks
    (collectionMarks (anchorOf anchored label) name) (tagInk tag) hpen hfollows hnew
    (by rw [htag, anchorInk, ← Ink.marks_append]; rfl)
  have hmarks := isReadable_collectionMarks anchored label hname
  by_cases hvs : vs = []
  · subst hvs
    exact ⟨[], Written.showEntries_nil _ _, ⟨hmarks, trivial⟩,
      hbody _ (lays_emptyInk '\x7b' '\x7d' hbehind hfollows')⟩
  · obtain ⟨entries, hentries, hshows, hread, hlays⟩ := exists_entriesInk hvs hkeys hfits h
      (startLine_lead hbehind fun _ => rfl) hfollows' (forall_met_note hpath) hagain
    refine ⟨entries, hshows, ⟨hmarks, hread⟩, ?_⟩
    have hempty : vs.isEmpty = false := by simpa using hvs
    have hempty' : entries.isEmpty = false := by simpa using hentries
    rw [hempty, if_neg Bool.false_ne_true, Written.chars, hempty', if_neg Bool.false_ne_true]
    exact hbody _ hlays

theorem isWritten_map {vs : List (Value × Value)} (hkeys : ∀ e ∈ vs, e.1.IsScalar ∧ ComesBack e.1)
    (hfits : entriesFit (i + 2) vs)
    (h : ∀ e ∈ vs, ∀ place, Fits (i + 2) place e.2 →
      IsWritten anchored (label.toList ++ path) (i + 2) place e.2) :
    IsWritten anchored path i place (.map label vs) := by
  refine isWritten_of_new fun o pen hpen hfollows hnew hpath hagain => ?_
  have hnew' : ∀ l, label = some l → l ∉ o.met := hnew
  rw [noteLabels_map hnew'] at hagain ⊢
  obtain ⟨entries, hshows, hread, hlays⟩ := exists_mapping none none hkeys hfits h hpen
    hfollows hnew' hpath hagain rfl nofun
  refine ⟨_, Written.shows_map (anchor_collectionMarks _ none) rfl hnew' hshows, hread, ?_⟩
  rw [valueInk, innerIndent_setting]
  exact hlays.congr (by rw [tagInk, Ink.none_append])

/-- The elements of a set are written as keys of null. -/
theorem elementsInk_eq (column : Nat) (vs : List Value) :
    elementsInk anchored column vs = entriesInk anchored column (vs.map (·, .null)) := by
  induction vs with
  | nil => rw [elementsInk, List.map_nil, entriesInk]
  | cons v vs ih =>
    have hnull : valueInk anchored column .entry false .null =
        scalarInk (column + 2) false Tag.null "null" false :=
      valueInk_scalar (v := .null) rfl column .entry false
    rw [elementsInk, List.map_cons, entriesInk, ih, hnull]

theorem isWritten_set {vs : List Value} (hkeys : ∀ v ∈ vs, v.IsScalar ∧ ComesBack v)
    (hfits : ∀ v ∈ vs, KeyFits (i + 2) v) : IsWritten anchored path i place (.set label vs) := by
  refine isWritten_of_new fun o pen hpen hfollows hnew hpath hagain => ?_
  have hnew' : ∀ l, label = some l → l ∉ o.met := hnew
  rw [noteLabels_set hnew'] at hagain ⊢
  have hnull (place : Place) (i : Nat) : Fits i place .null := trivial
  have hname : Lexer.IsTagName "set".toList := ⟨List.all_iff_forall_prop.mp (by decide), _, _, rfl, rfl⟩
  obtain ⟨entries, hshows, hread, hlays⟩ := exists_mapping (some Tag.set) (some "set".toList)
    (List.forall_mem_map.mpr hkeys)
    (entriesFit_iff.mpr (List.forall_mem_map.mpr fun v hv => ⟨hfits v hv, hnull _ _⟩))
    (List.forall_mem_map.mpr fun v _ place hplace => isWritten_scalar (v := .null) rfl comesBack_null hplace)
    hpen hfollows hnew' hpath hagain (Ink.append_none _).symm (fun n hn => Option.some.inj hn ▸ hname)
  refine ⟨_, Written.shows_set (anchor_collectionMarks _ _) rfl hnew' hshows, hread, ?_⟩
  rw [valueInk, innerIndent_setting, elementsInk_eq]
  simpa only [List.isEmpty_map] using hlays

end Collections

/-! ## Every value -/

/-- **Every value that fits is written so that it is read**, and what is written shows it. -/
theorem isWritten {objects : Label → Value → Prop} {anchored path : List Label} {v : Value}
    (hv : Unfolds objects path v) (hback : IsRestorable v) {i : Nat} {place : Place}
    (hfits : Fits i place v) : IsWritten anchored path i place v := by
  induction hv generalizing i place with
  | @scalar path v hscalar =>
    have hcomes := hback.comesBack hscalar
    have ⟨_, _, _, hform, _⟩ := hcomes
    exact isWritten_scalar hform hcomes hfits
  | again hl =>
    -- what stands around the place has been met
    intro o pen hpen hfollows hpath hagain
    exact isWritten_of_met rfl (hpath _ hl) hpen hfollows hagain
  | pair => exact absurd (hback _ .self) id
  | list _ _ ih =>
    have hitems := (Value.everywhere_list_iff.mp hback).2
    refine isWritten_list fun column hcolumn v hv => ih v hv (hitems v hv) ?_
    exact (itemsFit_iff.mp hfits v hv).mono hcolumn (Nat.add_le_add_right hcolumn 2)
  | set =>
    obtain ⟨hkeys, helements⟩ := Value.everywhere_set_iff.mp hback
    exact isWritten_set
      (fun v hv => ⟨hkeys.1 v hv, IsRestorable.comesBack (helements v hv) (hkeys.1 v hv)⟩) hfits
  | map _ _ _ _ ihvalues =>
    obtain ⟨hkeys, hparts⟩ := Value.everywhere_map_iff.mp hback
    refine isWritten_map (fun e he => ?_) hfits fun e he place => ihvalues e he (hparts e he).2
    have hscalar := hkeys.1 e.1 (List.mem_map_of_mem he)
    exact ⟨hscalar, IsRestorable.comesBack (hparts e he).1 hscalar⟩

/-! ## The page -/

section Page

variable {objects : Label → Value → Prop} {vs : List (Value × Value)}

/-- **A map is written as a document that shows it.** -/
theorem exists_render (hsome : vs ≠ []) (hback : IsRestorable (.map none vs)) (hfits : entriesFit 0 vs)
    (hvs : ∀ e ∈ vs, Unfolds objects [] e.2) :
    ∃ entries : List (Bool × Written × Written), entries ≠ [] ∧
      Written.showEntries (anchoredLabels (.map none vs)) ⟨[], []⟩ entries vs ∧
      Written.areReadableEntries 0 entries ∧
      (render vs).toList = Written.entryChars [] 0 entries ++ ['\n'] := by
  obtain ⟨hkeys, hparts⟩ := Value.everywhere_map_iff.mp hback
  have hstart : Follows (anchoredLabels (.map none vs)) ⟨[], []⟩ Pen.start.written := by
    simp [Follows, Pen.start]
  have hagain : ∀ l ∈ (noteEntries vs ⟨[], []⟩).again, l ∈ anchoredLabels (.map none vs) := by
    have hnote : noteLabels (.map none vs) ⟨[], []⟩ = noteEntries vs ⟨[], []⟩ := noteLabels_map nofun
    intro l hl
    rw [anchoredLabels, hnote]
    exact List.mem_reverse.mpr hl
  obtain ⟨entries, hne, hshows, hread, hlays⟩ := exists_entriesInk hsome
    (fun e he => by
      have hscalar := hkeys.1 e.1 (List.mem_map_of_mem he)
      exact ⟨hscalar, IsRestorable.comesBack (hparts e he).1 hscalar⟩)
    hfits (fun e he _ => isWritten (hvs e he) (hparts e he).2)
    (show Ink.startLine 0 Pen.start = ([], .fresh 0 []) from rfl) hstart (fun _ h => absurd h List.not_mem_nil)
    hagain
  obtain ⟨gap, hgap, hchars⟩ := hlays.settles 0
  refine ⟨entries, hne, hshows, hread, ?_⟩
  have hempty : vs.isEmpty = false := by simpa using hsome
  have hink : valueInk (anchoredLabels (.map none vs)) 0 .root false (.map none vs) Pen.start =
      entriesInk (anchoredLabels (.map none vs)) 0 vs Pen.start := by
    rw [valueInk, hempty]
    rfl
  rw [render, String.toList_ofList, Ink.append_apply, hink, hgap]
  exact hchars

/-- **A map that is written as YAML is read back**, with other labels for its objects. -/
theorem readValue_render (hsome : vs ≠ []) (hback : IsRestorable (.map none vs)) (hfits : entriesFit 0 vs)
    (hvs : ∀ e ∈ vs, Unfolds objects [] e.1 ∧ Unfolds objects [] e.2)
    (hobjects : AreObjects objects) (number : Nat) :
    ∃ names v, readValue number (render vs).toList = .ok v ∧
      (∀ a b l, names a = some l → names b = some l → a = b) ∧ v.renamed names = .map none vs := by
  obtain ⟨entries, hne, hshows, hread, hchars⟩ :=
    exists_render hsome hback hfits fun e he => (hvs e he).2
  rw [hchars]
  exact readValue_document hne hread hshows hobjects hvs hback number

end Page

end DevMachines.Yaml
