import DevMachines.Proofs.Value.Parts
import DevMachines.Yaml.Render

/-!
# Values as views of objects

A label makes a part of a value an *object*, which may stand in several places and even inside itself.
What an object is, apart from where it stands, is its outline: the keys and scalars that it has, and for
each collection in it no more than its label.  A value then is what one sees of objects from a place:
each is opened up into its outline, and what stands around the place is named instead.  So two values
with one label differ only in how far the same objects are opened (`Unfolds`).

The labels themselves are arbitrary.  `Value.renamed` gives objects other labels, and two values are the
same, the identity of objects included, if one is the other with other labels for its objects.
-/

namespace DevMachines

/-! ## Other labels -/

namespace Value

mutual

/-- A value with other labels, or none, for its objects. -/
def renamed (names : Label → Option Label) : Value → Value
  | .date label d => .date (label.bind names) d
  | .moment label m => .moment (label.bind names) m
  | .list label items => .list (label.bind names) (renamedItems names items)
  | .pair label a b => .pair (label.bind names) (renamed names a) (renamed names b)
  | .set label elements => .set (label.bind names) (renamedItems names elements)
  | .map label entries => .map (label.bind names) (renamedEntries names entries)
  | .again label => .again ((names label).getD label)
  | v => v

/-- Items with other labels for their objects. -/
def renamedItems (names : Label → Option Label) : List Value → List Value
  | [] => []
  | v :: rest => renamed names v :: renamedItems names rest

/-- Entries with other labels for their objects. -/
def renamedEntries (names : Label → Option Label) : List (Value × Value) → List (Value × Value)
  | [] => []
  | (k, v) :: rest => (renamed names k, renamed names v) :: renamedEntries names rest

end

variable {names : Label → Option Label}

theorem renamedItems_eq (vs : List Value) : renamedItems names vs = vs.map (renamed names) := by
  induction vs with
  | nil => rfl
  | cons v vs ih => rw [renamedItems, ih, List.map_cons]

theorem renamedEntries_eq (entries : List (Value × Value)) : renamedEntries names entries =
    entries.map fun e => (e.1.renamed names, e.2.renamed names) := by
  induction entries with
  | nil => rfl
  | cons e entries ih => rw [renamedEntries, ih, List.map_cons]

theorem isScalar_renamed {v : Value} : (v.renamed names).IsScalar ↔ v.IsScalar := by
  cases v <;> exact Iff.rfl

/-- Other labels do not matter once labels are left out, as long as nothing stands inside itself. -/
theorem unlabelled_renamed_of_isScalar {v : Value} (hv : v.IsScalar) :
    (v.renamed names).unlabelled = v.unlabelled := by
  cases v <;> first | rfl | exact absurd hv id

end Value

namespace Yaml

/-! ## Outlines -/

/-- What a collection shows of a part of its own: of a collection only the label, if it has one. -/
def mention : Value → Value
  | .list (some l) _ | .set (some l) _ | .map (some l) _ => .again l
  | .pair label a b => .pair label (mention a) (mention b)
  | v => v

/-- What an object is, apart from where it stands. -/
def outline : Value → Value
  | .list label items => .list label (items.map mention)
  | .map label entries => .map label (entries.map fun e => (e.1, mention e.2))
  | v => v

/-- What can be a key is mentioned as it is. -/
theorem mention_of_isKey {v : Value} (h : v.isKey = true) : mention v = v := by
  induction v using Value.byParts with
  | scalar v hv => cases v <;> first | rfl | exact absurd hv id
  | list | set | map | again => exact absurd h Bool.false_ne_true
  | pair label a b iha ihb =>
    rw [Value.isKey, Bool.and_eq_true] at h
    rw [mention, iha h.1, ihb h.2]

@[simp] theorem labelOf_mention (v : Value) : labelOf (mention v) = labelOf v := by
  cases v with
  | list label | set label | map label => cases label <;> rfl
  | _ => rfl

@[simp] theorem labelOf_outline (v : Value) : labelOf (outline v) = labelOf v := by
  cases v <;> rfl

theorem outline_of_isScalar {v : Value} (hv : v.IsScalar) : outline v = v := by
  cases v <;> first | rfl | exact absurd hv id

/-- Is a value no more than a label? -/
def IsAgain (v : Value) : Prop := ∃ l, v = .again l

/-- What is mentioned without its label is the value itself. -/
theorem eq_of_mention_of_unlabelled {v w : Value} (h : mention v = mention w) (hlabel : labelOf v = none)
    (hpair : ∀ label a b, v ≠ .pair label a b) : v = w := by
  have hself : ∀ {u : Value}, labelOf u = none → (∀ label a b, u ≠ .pair label a b) → mention u = u := by
    intro u hu hpair
    cases u with
    | list label | set label | map label =>
      obtain rfl : label = none := hu
      rfl
    | pair label a b => exact absurd rfl (hpair label a b)
    | _ => rfl
  have hlabel' : labelOf w = none := by rw [← labelOf_mention, ← h, labelOf_mention, hlabel]
  rw [hself hlabel hpair] at h
  cases w with
  | pair label a b => exact absurd h (hpair label _ _)
  | _ => exact h.trans (hself hlabel' nofun)

/-! ## Views of objects -/

/-- Is what has a label one object? -/
def AreObjects (objects : Label → Value → Prop) : Prop :=
  ∀ l o o', objects l o → objects l o' → o = o'

/-- May a collection be opened up at a path?  It does not stand around that place, and its outline is
what it is as an object.  One without a label stands inside no object. -/
structure OpensUp (objects : Label → Value → Prop) (path : List Label) (v : Value) : Prop where
  bare : labelOf v = none → path = []
  fresh : ∀ l, labelOf v = some l → l ∉ path ∧ objects l (outline v)

/-- Is a value what is seen of objects from a place, with the collections that stand around it named by
the path? -/
inductive Unfolds (objects : Label → Value → Prop) : List Label → Value → Prop
  | scalar {path : List Label} {v : Value} (hv : v.IsScalar) (h : ∀ l, labelOf v = some l → objects l v) :
      Unfolds objects path v
  | again {path : List Label} {l : Label} (h : l ∈ path) : Unfolds objects path (.again l)
  | pair {path : List Label} {a b : Value} (ha : Unfolds objects path a) (hb : Unfolds objects path b) :
      Unfolds objects path (.pair none a b)
  | list {path : List Label} {label : Option Label} {items : List Value}
      (h : OpensUp objects path (.list label items))
      (hitems : ∀ v ∈ items, Unfolds objects (label.toList ++ path) v) :
      Unfolds objects path (.list label items)
  | set {path : List Label} {label : Option Label} {elements : List Value}
      (h : OpensUp objects path (.set label elements))
      (helements : ∀ v ∈ elements, Unfolds objects (label.toList ++ path) v) :
      Unfolds objects path (.set label elements)
  | map {path : List Label} {label : Option Label} {entries : List (Value × Value)}
      (h : OpensUp objects path (.map label entries))
      (hkeys : ∀ e ∈ entries, Unfolds objects (label.toList ++ path) e.1)
      (hvalues : ∀ e ∈ entries, Unfolds objects (label.toList ++ path) e.2) :
      Unfolds objects path (.map label entries)

variable {objects others : Label → Value → Prop} {path : List Label} {v : Value}

theorem unfolds_null : Unfolds objects path .null := .scalar trivial fun _ h => nomatch h

/-- What is seen with a label, and not just named, shows what the object is. -/
theorem Unfolds.objects_outline (h : Unfolds objects path v) (hv : ¬ IsAgain v) {l : Label}
    (hlabel : labelOf v = some l) : objects l (outline v) := by
  cases h with
  | scalar hscalar h =>
    rw [outline_of_isScalar hscalar]
    exact h l hlabel
  | again h => exact absurd ⟨_, rfl⟩ hv
  | pair => cases hlabel
  | list h | set h | map h => exact (h.fresh l hlabel).2

/-- What is seen of objects is seen of more objects, too. -/
theorem Unfolds.mono (h : Unfolds objects path v) (hmore : ∀ l o, objects l o → others l o) :
    Unfolds others path v := by
  have hopens : ∀ {path : List Label} {v : Value}, OpensUp objects path v → OpensUp others path v :=
    fun h => ⟨h.bare, fun l hl => ⟨(h.fresh l hl).1, hmore _ _ (h.fresh l hl).2⟩⟩
  induction h with
  | scalar hv h => exact .scalar hv fun l hl => hmore _ _ (h l hl)
  | again h => exact .again h
  | pair _ _ iha ihb => exact .pair iha ihb
  | list h _ ih => exact .list (hopens h) ih
  | set h _ ih => exact .set (hopens h) ih
  | map h _ _ ihkeys ihvalues => exact .map (hopens h) ihkeys ihvalues

/-! ## Values without labels -/

/-- Has no part of a value a label? -/
def IsBare (v : Value) : Prop := v.Everywhere fun part => labelOf part = none

/-- A value without labels is a view of any objects. -/
theorem IsBare.unfolds (h : IsBare v) : Unfolds objects [] v := by
  have hnot : ∀ {v : Value} {l : Label}, labelOf v = none → labelOf v ≠ some l := fun hnone hl =>
    Option.some_ne_none _ (hl.symm.trans hnone)
  have hopens : ∀ {v : Value}, labelOf v = none → OpensUp objects [] v := fun hnone =>
    ⟨fun _ => rfl, fun _ hl => absurd hl (hnot hnone)⟩
  induction v using Value.byParts with
  | scalar v hv => exact .scalar hv fun l hl => absurd hl (hnot (h _ .self))
  | list label items ih =>
    obtain ⟨hlabel, hitems⟩ := Value.everywhere_list_iff.mp h
    obtain rfl : label = none := hlabel
    exact .list (hopens rfl) fun v hv => ih v hv (hitems v hv)
  | pair label a b iha ihb =>
    obtain ⟨hlabel, ha, hb⟩ := Value.everywhere_pair_iff.mp h
    obtain rfl : label = none := hlabel
    exact .pair (iha ha) (ihb hb)
  | set label elements ih =>
    obtain ⟨hlabel, helements⟩ := Value.everywhere_set_iff.mp h
    obtain rfl : label = none := hlabel
    exact .set (hopens rfl) fun v hv => ih v hv (helements v hv)
  | map label entries ih =>
    obtain ⟨hlabel, hentries⟩ := Value.everywhere_map_iff.mp h
    obtain rfl : label = none := hlabel
    exact .map (hopens rfl) (fun e he => (ih e he).1 (hentries e he).1) fun e he =>
      (ih e he).2 (hentries e he).2
  | again label => cases h _ .self

/-- A value whose labels all go is the value without labels. -/
theorem IsBare.eq_unlabelled {names : Label → Option Label} (h : IsBare (v.renamed names)) :
    v.renamed names = v.unlabelled := by
  induction v using Value.byParts with
  | scalar v hv =>
    cases v with
    | date label d => exact congrArg (Value.date · d) (h _ .self)
    | moment label m => exact congrArg (Value.moment · m) (h _ .self)
    | list | pair | set | map | again => exact absurd hv id
    | _ => rfl
  | list label items ih =>
    rw [Value.renamed, Value.renamedItems_eq] at h ⊢
    obtain ⟨hlabel, hitems⟩ := Value.everywhere_list_iff.mp h
    rw [show label.bind names = none from hlabel, Value.unlabelled, Value.unlabelledItems_eq,
      List.map_congr_left fun v hv => ih v hv (hitems _ (List.mem_map_of_mem hv))]
  | pair label a b iha ihb =>
    rw [Value.renamed] at h ⊢
    obtain ⟨hlabel, ha, hb⟩ := Value.everywhere_pair_iff.mp h
    rw [show label.bind names = none from hlabel, Value.unlabelled, iha ha, ihb hb]
  | set label elements ih =>
    rw [Value.renamed, Value.renamedItems_eq] at h ⊢
    obtain ⟨hlabel, helements⟩ := Value.everywhere_set_iff.mp h
    rw [show label.bind names = none from hlabel, Value.unlabelled, Value.unlabelledItems_eq,
      List.map_congr_left fun v hv => ih v hv (helements _ (List.mem_map_of_mem hv))]
  | map label entries ih =>
    rw [Value.renamed, Value.renamedEntries_eq] at h ⊢
    obtain ⟨hlabel, hentries⟩ := Value.everywhere_map_iff.mp h
    have hsame : ∀ e ∈ entries, (e.1.renamed names, e.2.renamed names) = (e.1.unlabelled, e.2.unlabelled) := by
      intro e he
      obtain ⟨hkey, hvalue⟩ := hentries _ (List.mem_map_of_mem he)
      rw [(ih e he).1 hkey, (ih e he).2 hvalue]
    rw [show label.bind names = none from hlabel, Value.unlabelled, Value.unlabelledEntries_eq,
      List.map_congr_left hsame]
  | again label => cases h _ .self

end Yaml
end DevMachines
