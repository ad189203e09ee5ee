import DevMachines.Profile.Export
import DevMachines.Proofs.Yaml.Writing

/-!
# A YAML export loses nothing

The profiles of a project, exported as YAML, are read back as their plain form, whatever their texts
are: each text comes back as the same text and not as the number, the date or the null that it may
look like, each flag as a truth value, and entries and items in their order.

A plain form is made of records, lists, texts and truth values.  Each of these `Survives`: it comes
back from what it is written as, it is not nested so deeply that a text does not fit on the page, and it
has no labels, so nothing in it is shared.

Main statement: `ProfileSet.readValue_yaml`.
-/

namespace DevMachines

open Yaml

/-- Names that are different, and short enough for a line. -/
def AreFieldNames (names : List String) : Prop :=
  names.Nodup ∧ ∀ name ∈ names, isSimpleKey [] .start (.text name) = true ∧
    (Ink.shown name.toList).length ≤ 1022

instance (names : List String) : Decidable (AreFieldNames names) :=
  inferInstanceAs (Decidable (_ ∧ _))

/-- A value that is written, and read back as itself, where so many levels are in it. -/
structure Survives (v : Value) (levels : Nat) : Prop where
  restorable : IsRestorable v
  bare : IsBare v
  fits : ∀ (indent : Nat) (place : Yaml.Place), indent + 2 * levels + 2 < Ink.bestWidth → Fits indent place v

namespace Survives

variable {v : Value} {levels : Nat}

theorem text (s : String) (levels : Nat) : Survives (.text s) levels where
  restorable := (Value.everywhere_scalar_iff (v := .text s) trivial).mpr (comesBack_text s)
  bare := (Value.everywhere_scalar_iff (v := .text s) trivial).mpr rfl
  fits _ _ hindent _ := .inl (by omega)

theorem bool (b : Bool) (levels : Nat) : Survives (.bool b) levels where
  restorable := (Value.everywhere_scalar_iff (v := .bool b) trivial).mpr (comesBack_bool b)
  bare := (Value.everywhere_scalar_iff (v := .bool b) trivial).mpr rfl
  fits _ _ _ := trivial

theorem list {vs : List Value} (h : ∀ v ∈ vs, Survives v levels) :
    Survives (.list none vs) (levels + 1) where
  restorable := Value.everywhere_list_iff.mpr ⟨trivial, fun v hv => (h v hv).restorable⟩
  bare := Value.everywhere_list_iff.mpr ⟨rfl, fun v hv => (h v hv).bare⟩
  fits indent place hindent := by
    have hcolumn : place.itemColumn .none indent ≤ indent + 2 := by
      rw [Yaml.Place.itemColumn]
      split <;> omega
    exact itemsFit_iff.mpr fun v hv => (h v hv).fits _ _ (by omega)

/-- The fields of a record fit where the values of them do. -/
theorem entriesFit {names : List String} (hnames : AreFieldNames names) {fields : List (String × Value)}
    (hfields : fields.map (·.1) = names) (h : ∀ f ∈ fields, Survives f.2 levels) {column : Nat}
    (hcolumn : column + 2 * levels + 2 < Ink.bestWidth) :
    Yaml.entriesFit column (fields.map fun f => (.text f.1, f.2)) := by
  refine entriesFit_iff.mpr (List.forall_mem_map.mpr fun f hf => ⟨?_, (h f hf).fits column _ hcolumn⟩)
  obtain ⟨hsimple, hshort⟩ := hnames.2 f.1 (hfields ▸ List.mem_map_of_mem hf)
  rwa [KeyFits, if_pos hsimple]

/-- A record survives if the values of its fields do. -/
theorem record {names : List String} (hnames : AreFieldNames names) {fields : List (String × Value)}
    (hfields : fields.map (·.1) = names) (h : ∀ f ∈ fields, Survives f.2 levels) :
    Survives (.record fields) (levels + 1) where
  restorable := by
    refine Value.everywhere_map_iff.mpr ⟨⟨?_, ?_⟩, List.forall_mem_map.mpr fun f hf =>
      ⟨(text f.1 levels).restorable, (h f hf).restorable⟩⟩
    · simp only [List.map_map, List.forall_mem_map]
      exact fun _ _ => trivial
    · rw [List.map_map, List.pairwise_map]
      rw [← hfields] at hnames
      refine (List.pairwise_map.mp hnames.1).imp fun hne => ?_
      simpa [Value.eq] using hne
  bare := Value.everywhere_map_iff.mpr ⟨rfl, List.forall_mem_map.mpr fun f hf =>
    ⟨(text f.1 levels).bare, (h f hf).bare⟩⟩
  fits indent place hindent := entriesFit hnames hfields h (by omega)

end Survives

/-! ## The plain form of profiles -/

theorem Step.survives (s : Step) : Survives s.toValue 1 := by
  have hnames : AreFieldNames ["name", "kind", "path", "privileged"] := by decide
  refine .record hnames rfl ?_
  simp only [List.forall_mem_cons, List.not_mem_nil, false_imp_iff, implies_true, and_true]
  exact ⟨.text _ 0, .text _ 0, .text _ 0, .bool _ 0⟩

theorem SharedFolder.survives (f : SharedFolder) : Survives f.toValue 1 := by
  have hnames : AreFieldNames ["host_path", "guest_path"] := by decide
  refine .record hnames rfl ?_
  simp only [List.forall_mem_cons, List.not_mem_nil, false_imp_iff, implies_true, and_true]
  exact ⟨.text _ 0, .text _ 0⟩

theorem Profile.survives (p : Profile) : Survives p.toValue 3 := by
  have hnames : AreFieldNames ["name", "box", "provisioners", "synced_folders"] := by decide
  refine .record hnames rfl ?_
  simp only [List.forall_mem_cons, List.not_mem_nil, false_imp_iff, implies_true, and_true]
  refine ⟨.text _ 2, .text _ 2, .list ?_, .list ?_⟩
  · exact List.forall_mem_map.mpr fun s _ => s.survives
  · exact List.forall_mem_map.mpr fun f _ => f.survives

/-- The entries of the plain form of a project's profiles. -/
def ProfileSet.fields (s : ProfileSet) : List (String × Value) :=
  [("profiles", .list none (s.profiles.map Profile.toValue))]

theorem ProfileSet.survives_fields (s : ProfileSet) : ∀ f ∈ s.fields, Survives f.2 4 :=
  List.forall_mem_singleton.mpr (.list (List.forall_mem_map.mpr fun p _ => p.survives))

/-! ## The export -/

namespace ProfileSet

/-- **A YAML export loses nothing**: read as a settings document is read, it is the plain form of the
profiles, for all texts that they may have.  What is read has labels, as everything that is read, and is
the plain form apart from these. -/
theorem readValue_yaml (s : ProfileSet) (number : Nat) :
    ∃ v, readValue number s.yaml.toList = .ok v ∧ v.unlabelled = s.toValue := by
  have hnames : AreFieldNames ["profiles"] := by decide
  have hsurvives : Survives s.toValue 5 := .record hnames rfl s.survives_fields
  -- whatever the objects are, a value without labels shows none of them
  let objects : Label → Value → Prop := fun _ _ => False
  have hviews : ∀ e ∈ s.fields.map fun f => (Value.text f.1, f.2),
      Unfolds objects [] e.1 ∧ Unfolds objects [] e.2 := fun e he => by
    obtain ⟨hkey, hvalue⟩ := (Value.everywhere_map_iff.mp hsurvives.bare).2 e he
    exact ⟨IsBare.unfolds hkey, IsBare.unfolds hvalue⟩
  obtain ⟨names, v, hread, -, hsame⟩ := readValue_render (List.cons_ne_nil _ _) hsurvives.restorable
    (Survives.entriesFit hnames rfl s.survives_fields (by decide)) hviews nofun number
  refine ⟨v, hread, ?_⟩
  have hbare : IsBare (v.renamed names) := by
    rw [hsame]
    exact hsurvives.bare
  exact hbare.eq_unlabelled.symm.trans hsame

end ProfileSet
end DevMachines
