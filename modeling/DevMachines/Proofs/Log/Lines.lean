import DevMachines.Proofs.Json.Doubles
import DevMachines.Proofs.Json.OneLine
import DevMachines.Proofs.Log.Fields
import DevMachines.Proofs.Text.Order
import DevMachines.Proofs.Value.JsonForm

/-!
# The lines of records

A record each of whose values has a JSON form can be written, for people and for programs.  What is
written for programs takes one line and is an object with the fields of the record for members, each
once.

Main statements: `exists_line` and `IsJsonLine.of_jsonLine`.
-/

namespace DevMachines
namespace Log

open Settings (keys keys_cons)
open Json (EachFloat EachFloatOfItems EachFloatOfMembers)

/-! ## Sorting members -/

/-- Members with different names are all kept. -/
theorem keepLast_of_nodup {members : List (String × Json)} (h : (keys members).Nodup) :
    keepLast members = members := by
  induction members with
  | nil => rfl
  | cons m members ih =>
    obtain ⟨name, v⟩ := m
    rw [keys_cons, List.nodup_cons] at h
    have hother : ¬ (members.any (·.1 == name)) := by
      rw [List.any_eq_true]
      rintro ⟨m, hm, hname⟩
      exact h.1 (eq_of_beq hname ▸ List.mem_map_of_mem hm)
    rw [keepLast, if_neg hother, ih h.2]

theorem keepLast_subset (members : List (String × Json)) : keepLast members ⊆ members := by
  induction members with
  | nil => exact fun _ h => h
  | cons m members ih =>
    obtain ⟨name, v⟩ := m
    rw [keepLast]
    split
    · exact List.subset_cons_of_subset _ ih
    · exact List.cons_subset_cons _ ih

theorem perm_sortByName {α : Type} (fields : List (String × α)) :
    (sortByName fields).Perm fields :=
  List.mergeSort_perm fields _

/-- Sorting by name puts fields with different names in the one order that they have by name. -/
theorem sortByName_eq {α : Type} {fields sorted : List (String × α)} (hperm : sorted.Perm fields)
    (hsorted : sorted.Pairwise fun a b => a.1 < b.1) : sortByName fields = sorted := by
  have hle : (sortByName fields).Pairwise fun a b => a.1 ≤ b.1 :=
    Text.pairwise_mergeSort_by Prod.fst fields
  have hsame : sorted.Perm (sortByName fields) := hperm.trans (perm_sortByName fields).symm
  have hother : (sortByName fields).Pairwise fun a b => a.1 ≠ b.1 := by
    refine hsame.pairwise (hsorted.imp ?_) Ne.symm
    intro a b hlt heq
    exact String.lt_irrefl b.1 (heq ▸ hlt)
  refine List.Perm.eq_of_pairwise ?_ (hle.and hother) (hsorted.imp ?_) hsame.symm
  · rintro a b - - ⟨hab, hne⟩ ⟨hba, -⟩
    exact absurd (String.le_antisymm hab hba) hne
  · intro a b hlt
    refine ⟨?_, fun heq => String.lt_irrefl b.1 (heq ▸ hlt)⟩
    exact String.not_lt.mp fun hgt => String.lt_irrefl _ (String.lt_trans hgt hlt)

theorem sortJsonMembers_eq (members : List (String × Json)) :
    sortJsonMembers members = members.map fun m => (m.1, sortJson m.2) := by
  induction members with
  | nil => rfl
  | cons m members ih => rw [sortJsonMembers, ih, List.map_cons]

section EachFloat

variable {p : Binary64 → Prop}

theorem eachFloatOfMembers_iff {members : List (String × Json)} :
    EachFloatOfMembers p members ↔ ∀ m ∈ members, m.2.EachFloat p := by
  induction members with
  | nil => exact iff_of_true trivial nofun
  | cons m members ih => rw [EachFloatOfMembers, ih, List.forall_mem_cons]

mutual

/-- Sorting members changes no double. -/
theorem eachFloat_sortJson {v : Json} (h : v.EachFloat p) : (sortJson v).EachFloat p := by
  cases v with
  | null | bool | int | float | str => exact h
  | arr items => exact eachFloatOfItems_sortJsonItems h
  | obj members =>
    have hsorted := eachFloatOfMembers_iff.mp (eachFloatOfMembers_sortJsonMembers h)
    refine eachFloatOfMembers_iff.mpr fun m hm => hsorted m ?_
    exact keepLast_subset _ ((perm_sortByName _).mem_iff.mp hm)

theorem eachFloatOfItems_sortJsonItems {items : List Json} (h : EachFloatOfItems p items) :
    EachFloatOfItems p (sortJsonItems items) := by
  cases items with
  | nil => trivial
  | cons v items => exact ⟨eachFloat_sortJson h.1, eachFloatOfItems_sortJsonItems h.2⟩

theorem eachFloatOfMembers_sortJsonMembers {members : List (String × Json)}
    (h : EachFloatOfMembers p members) : EachFloatOfMembers p (sortJsonMembers members) := by
  cases members with
  | nil => trivial
  | cons m members => exact ⟨eachFloat_sortJson h.1, eachFloatOfMembers_sortJsonMembers h.2⟩

end

end EachFloat

/-! ## The fields of a record as members -/

/-- The fields of a record as a value. -/
def asValue (record : Fields) : Value := .map none (record.map fun f => (.text f.1, f.2))

theorem hasJsonForm_asValue {record : Fields} (h : ∀ f ∈ record, f.2.HasJsonForm) :
    (asValue record).HasJsonForm := by
  refine Value.hasJsonForm_map.mpr fun e he => ?_
  obtain ⟨f, hf, rfl⟩ := List.mem_map.mp he
  exact ⟨trivial, rfl, h f hf⟩

/-- Is this the line of a record for programs?  It is an object with the fields for members. -/
structure IsJsonLine (record : Fields) (line : String) : Prop where
  /-- There is no line feed in it. -/
  printable : ∀ c ∈ line.toList, Json.IsPrintable c
  object : ∃ members, line = (Json.obj members).compact ∧
    (keys members).Perm (keys record) ∧
    (∀ f ∈ record, ∃ form, Value.toJson Value.display f.2 = .ok form ∧
      (f.1, sortJson form) ∈ members) ∧
    ((∀ f ∈ record, ∀ x, Value.Within (.float x) f.2 → x.IsDouble ∧ x.IsFinite) →
      Json.parse line = some (.obj members))

theorem IsJsonLine.of_jsonLine {record : Fields} {line : String} (hnodup : (keys record).Nodup)
    (h : jsonLine record = .ok line) : IsJsonLine record line := by
  rw [jsonLine, ← asValue] at h
  cases hjson : Value.toJson Value.display (asValue record) with
  | error fault =>
    rw [hjson] at h
    cases h
  | ok json =>
    rw [hjson] at h
    obtain ⟨members, rfl, hforms⟩ := Value.exists_areForms_of_toJson hjson
    obtain rfl : (sortJson (.obj members)).compact = line := Except.ok.inj h
    have hsame : keys (sortJsonMembers members) = keys record := by
      rw [sortJsonMembers_eq, keys, List.map_map]
      exact hforms.names
    have hkept : sortJson (.obj members) = .obj (sortByName (sortJsonMembers members)) := by
      rw [sortJson, keepLast_of_nodup (hsame ▸ hnodup)]
    refine ⟨Json.isPrintable_compact _, sortByName (sortJsonMembers members), by rw [hkept], ?_, ?_,
      ?_⟩
    · rw [← hsame]
      exact (perm_sortByName _).map Prod.fst
    · intro f hf
      obtain ⟨form, hform, hmem⟩ := hforms.exists_mem hf
      refine ⟨form, hform, (perm_sortByName _).mem_iff.mpr ?_⟩
      rw [sortJsonMembers_eq]
      exact List.mem_map_of_mem hmem
    · intro hfinite
      have hexact : (Json.obj members).EachFloat Json.WrittenExactly := by
        refine Value.always_eachFloat_toJson Value.display (asValue record) ?_ _ hjson
        rintro x (_ | _ | _ | _ | ⟨he, hx⟩)
        obtain ⟨f, hf, rfl⟩ := List.mem_map.mp he
        obtain ⟨hdouble, hnumber⟩ := hfinite f hf x hx
        exact Json.writtenExactly_of_isFinite hdouble hnumber
      rw [← hkept]
      exact Json.parse_compact (eachFloat_sortJson hexact)

/-- **A record whose values have a JSON form can be written in both forms.** -/
theorem exists_line (form : LineForm) {record : Fields} (h : ∀ f ∈ record, f.2.HasJsonForm) :
    ∃ text, line form record = .ok text := by
  cases form with
  | readable colours =>
    have hshort : ¬ (record.any (·.2.holdsLongInt)) := by
      rw [List.any_eq_true]
      rintro ⟨f, hf, hlong⟩
      exact absurd ((h f hf).short.symm.trans hlong) (by decide)
    rw [line, if_neg hshort]
    exact ⟨_, rfl⟩
  | json =>
    obtain ⟨json, hjson⟩ := (Value.exists_toJson_iff Value.display _).mpr (hasJsonForm_asValue h)
    rw [asValue] at hjson
    exact ⟨(sortJson json).compact, by rw [line, jsonLine, hjson]; rfl⟩

end Log
end DevMachines
