import DevMachines.Proofs.Value.Equality
import DevMachines.Settings.Merged

/-!
# Equality of effective settings

Effective settings are compared as maps, so what their entries say is all that counts: the documents
that they come from do not, nor does the order of their keys.

Main statement: `Merged.eq_comparesContent`.

## Looking up and comparing

That two settings have the same content is said in two ways: their entries can be paired off, or under
each key they have values with the same content, if any.  The second way is about look-ups, which stop
at the first key that is equal.  As no two keys are equal it is the only one, and so an entry is found
under each key with the content of its own (`get?_eq_some_iff`).
-/

namespace DevMachines
namespace Settings

open Value (SameContent SameEntry AreKeys)
open Binary64 (unitsPerOne)

/-- Are keys compared as the values that they are? -/
class LawfulSettingKey (κ : Type) [SettingKey κ] : Prop where
  beq_eq (a b : κ) : (a == b) = (SettingKey.toValue a).eq (SettingKey.toValue b)

instance : LawfulSettingKey String where
  beq_eq a b := by simp [SettingKey.toValue, Value.eq]

instance : LawfulSettingKey Value where
  beq_eq _ _ := rfl

namespace Merged

variable {κ : Type} [SettingKey κ] {s t u : Merged κ}

/-! ## Settings as maps -/

/-- An entry as a pair of values. -/
def entryValue (e : κ × Value) : Value × Value := (SettingKey.toValue e.1, e.2)

/-- The entries as a map, which may be an object of its own. -/
def toMap (s : Merged κ) (label : Option Label) : Value := .map label (s.entries.map entryValue)

theorem toValue_eq (s : Merged κ) : s.toValue = s.toMap none := rfl

/-- Which objects the maps are does not matter. -/
theorem eq_toMap (s t : Merged κ) (label label' : Option Label) :
    (s.toMap label).eq (t.toMap label') = s.eq t := by
  rw [Merged.eq, toValue_eq, toValue_eq, toMap, toMap, toMap, toMap, Value.eq, Value.eq]

theorem sameContent_toValue_iff : s.toValue.SameContent t.toValue ↔
    Matched SameEntry (s.entries.map entryValue) (t.entries.map entryValue) := by
  rw [toValue_eq, toMap, Value.sameContent_map_iff]
  constructor
  · rintro ⟨label, ys, hvalue, h⟩
    obtain ⟨-, rfl⟩ := Value.map.inj hvalue
    exact h
  · exact fun h => ⟨none, _, rfl, h⟩

/-! ## Comparable settings -/

theorem areKeys_keys (hs : s.toValue.IsComparable) :
    AreKeys (s.entries.map fun e => SettingKey.toValue e.1) := by
  have hkeys : AreKeys ((s.entries.map entryValue).map (·.1)) := hs.wellMade _ .self
  rwa [List.map_map] at hkeys

theorem isComparable_key (hs : s.toValue.IsComparable) {e : κ × Value} (he : e ∈ s.entries) :
    (SettingKey.toValue e.1).IsComparable :=
  hs.of_partOf (.key (List.mem_map_of_mem he) .self)

theorem isComparable_value (hs : s.toValue.IsComparable) {e : κ × Value} (he : e ∈ s.entries) :
    e.2.IsComparable :=
  hs.of_partOf (.member (List.mem_map_of_mem he) .self)

/-- No two entries have a key and a value in common with a third one. -/
theorem entriesHaveNothingInCommon (hs : s.toValue.IsComparable) :
    (s.entries.map entryValue).Pairwise fun e e' => ∀ f, SameEntry e f → ¬ SameEntry e' f :=
  Value.AreKeys.entriesHaveNothingInCommon (hs.wellMade _ .self)
    (List.forall_mem_map.mpr fun _ he w => (isComparable_key hs he).eq_iff w)

/-! ## Looking up -/

section Lookup

variable [LawfulSettingKey κ] {key k : κ} {v : Value}

/-- A key is equal to one that is there exactly if it has the same content. -/
theorem beq_key_iff (hk : (SettingKey.toValue k).isKey = true) :
    (key == k) = true ↔ SameContent (SettingKey.toValue key) (SettingKey.toValue k) := by
  rw [LawfulSettingKey.beq_eq, Value.eq_iff_sameContent_of_isKey hk]

/-- Of entries whose keys differ, one is found under each key with the content of its own. -/
theorem lookup_eq_some_iff {entries : List (κ × Value)}
    (h : AreKeys (entries.map fun e => SettingKey.toValue e.1)) :
    entries.lookup key = some v ↔
      ∃ k, (k, v) ∈ entries ∧ SameContent (SettingKey.toValue key) (SettingKey.toValue k) := by
  induction entries with
  | nil => simp
  | cons e entries ih =>
    obtain ⟨first, value⟩ := e
    obtain ⟨hkeys, hdiffer⟩ := h
    rw [List.map_cons, List.forall_mem_cons] at hkeys
    rw [List.map_cons, List.pairwise_cons] at hdiffer
    have hrest := ih ⟨hkeys.2, hdiffer.2⟩
    rw [List.lookup_cons]
    by_cases hfirst : (key == first) = true
    · rw [hfirst]
      have hsame := (beq_key_iff hkeys.1).mp hfirst
      constructor
      · intro hvalue
        obtain rfl := Option.some.inj hvalue
        exact ⟨first, List.mem_cons_self, hsame⟩
      · rintro ⟨k, hmem, hk⟩
        rcases List.mem_cons.mp hmem with heq | hmem
        · rw [(Prod.mk.inj heq).2]
        -- another key with this content would be equal to the first one
        · have hkmem : SettingKey.toValue k ∈ entries.map fun e => SettingKey.toValue e.1 :=
            List.mem_map_of_mem hmem
          have hequal := (Value.eq_iff_sameContent_of_isKey (hkeys.2 _ hkmem)).mpr
            (hsame.symm.trans hk)
          rw [hdiffer.1 _ hkmem] at hequal
          exact absurd hequal Bool.false_ne_true
    · rw [Bool.eq_false_iff.mpr hfirst, hrest]
      rw [beq_key_iff hkeys.1] at hfirst
      refine exists_congr fun k => and_congr_left fun hk => ?_
      rw [List.mem_cons, or_iff_right]
      intro heq
      rw [(Prod.mk.inj heq).1] at hk
      exact hfirst hk

end Lookup

/-! ## Content under each key -/

section Content

variable [LawfulSettingKey κ] {key : κ} {v : Value}

/-- **Under each key there is a value of an entry whose key has the same content.** -/
theorem get?_eq_some_iff (hs : s.toValue.IsComparable) : s.get? key = some v ↔
    ∃ k, (k, v) ∈ s.entries ∧ SameContent (SettingKey.toValue key) (SettingKey.toValue k) :=
  lookup_eq_some_iff (areKeys_keys hs)

theorem exists_get?_of_sameContent (hs : s.toValue.IsComparable) (ht : t.toValue.IsComparable)
    (h : s.toValue.SameContent t.toValue) (hv : s.get? key = some v) :
    ∃ w, t.get? key = some w ∧ v.SameContent w := by
  obtain ⟨k, hmem, hk⟩ := (get?_eq_some_iff hs).mp hv
  obtain ⟨f, hf, hkey, hvalue⟩ :=
    (sameContent_toValue_iff.mp h).exists_mem (List.mem_map_of_mem hmem)
  obtain ⟨⟨k', w⟩, hmem', rfl⟩ := List.mem_map.mp hf
  exact ⟨w, (get?_eq_some_iff ht).mpr ⟨k', hmem', hk.trans hkey⟩, hvalue⟩

/-- Each entry has a partner, if under each key there is the same content. -/
theorem exists_partner (hs : s.toValue.IsComparable) (ht : t.toValue.IsComparable)
    (h : ∀ key, Option.Rel SameContent (s.get? key) (t.get? key)) :
    ∀ e ∈ s.entries.map entryValue, ∃ f ∈ t.entries.map entryValue, SameEntry e f := by
  refine List.forall_mem_map.mpr fun e he => ?_
  have hfound : s.get? e.1 = some e.2 :=
    (get?_eq_some_iff hs).mpr ⟨e.1, he, (isComparable_key hs he).sameContent_self⟩
  have hrel := h e.1
  rw [hfound] at hrel
  cases hother : t.get? e.1 with
  | none => rw [hother] at hrel; cases hrel
  | some w =>
    rw [hother, Option.rel_some_some] at hrel
    obtain ⟨k, hmem, hk⟩ := (get?_eq_some_iff ht).mp hother
    exact ⟨entryValue (k, w), List.mem_map_of_mem hmem, hk, hrel⟩

theorem rel_sameContent_symm {found found' : Option Value}
    (h : Option.Rel SameContent found found') : Option.Rel SameContent found' found := by
  cases h with
  | some h => exact .some h.symm
  | none => exact .none

/-- **Settings have the same content exactly if they have the same keys, and values with the same
content under each of them.** -/
theorem sameContent_iff_rel_get? (hs : s.toValue.IsComparable) (ht : t.toValue.IsComparable) :
    s.toValue.SameContent t.toValue ↔
      ∀ key, Option.Rel SameContent (s.get? key) (t.get? key) := by
  constructor
  · intro h key
    cases hv : s.get? key with
    | some v =>
      obtain ⟨w, hw, hvw⟩ := exists_get?_of_sameContent hs ht h hv
      rw [hw, Option.rel_some_some]
      exact hvw
    | none =>
      cases hw : t.get? key with
      | none => exact .none
      | some w =>
        obtain ⟨v, hv', -⟩ := exists_get?_of_sameContent ht hs h.symm hw
        rw [hv] at hv'
        cases hv'
  · intro h
    have hback : ∀ key, Option.Rel SameContent (t.get? key) (s.get? key) := fun key =>
      rel_sameContent_symm (h key)
    have hlength := length_le_of_partners (entriesHaveNothingInCommon ht) (exists_partner ht hs hback)
    exact sameContent_toValue_iff.mpr
      (matched_of_partners (entriesHaveNothingInCommon hs) (exists_partner hs ht h) hlength)

/-- Values that are found may as well be compared by equality. -/
theorem rel_get?_iff (hs : s.toValue.IsComparable) (key : κ) :
    Option.Rel (fun v w => v.eq w = true) (s.get? key) (t.get? key) ↔
      Option.Rel SameContent (s.get? key) (t.get? key) := by
  cases hv : s.get? key with
  | none => cases t.get? key <;> simp
  | some v =>
    obtain ⟨k, hmem, -⟩ := (get?_eq_some_iff hs).mp hv
    cases t.get? key with
    | none => simp
    | some w => rw [Option.rel_some_some, Option.rel_some_some, (isComparable_value hs hmem).eq_iff]

end Content

/-! ## Equality -/

/-- Settings are compared by how many entries there are, and by an equal entry for each. -/
theorem eq_iff_entries : s.eq t = true ↔ s.entries.length = t.entries.length ∧
    ∀ e ∈ s.entries.map entryValue, ∃ f ∈ t.entries.map entryValue,
      e.1.eq f.1 = true ∧ e.2.eq f.2 = true := by
  rw [Merged.eq, toValue_eq, toValue_eq, toMap, toMap, Value.eq, Bool.and_eq_true, beq_iff_eq,
    Value.allEntriesAmong_iff, List.length_map, List.length_map]

/-- **Neither the documents that settings come from matter nor the order of their entries.** -/
theorem eq_of_perm {s' t' : Merged κ} (hs : s.entries.Perm s'.entries)
    (ht : t.entries.Perm t'.entries) : s.eq t = s'.eq t' := by
  rw [Bool.eq_iff_iff, eq_iff_entries, eq_iff_entries, hs.length_eq, ht.length_eq]
  simp only [(hs.map entryValue).mem_iff, (ht.map entryValue).mem_iff]

/-- **Equality of effective settings is equality of content.**  Settings are equal exactly if they have
the same keys and equal values under each of them.  Values are equal exactly if they have the same
content, in which true, 1 and 1.0 are one number wherever they stand.  So neither the documents that
settings come from matter nor the order of their keys.  It is the same to compare with settings and
with a map of their entries, on either side; and equality is reflexive, symmetric and transitive. -/
theorem eq_comparesContent [LawfulSettingKey κ] (hs : s.toValue.IsComparable)
    (ht : t.toValue.IsComparable) (u : Merged κ) :
    (s.eq t = true ↔ ∀ key, Option.Rel (fun v w => v.eq w = true) (s.get? key) (t.get? key)) ∧
    (s.eq t = true ↔ ∀ key, Option.Rel SameContent (s.get? key) (t.get? key)) ∧
    (∀ s' t' : Merged κ, s.entries.Perm s'.entries → t.entries.Perm t'.entries →
      s.eq t = s'.eq t') ∧
    (∀ label, s.toValue.eq (t.toMap label) = s.eq t ∧ (t.toMap label).eq s.toValue = s.eq t) ∧
    s.eq s = true ∧
    s.eq t = t.eq s ∧
    (s.eq t = true → t.eq u = true → s.eq u = true) := by
  have hcontent : s.eq t = true ↔ ∀ key, Option.Rel SameContent (s.get? key) (t.get? key) := by
    rw [Merged.eq, hs.eq_iff, sameContent_iff_rel_get? hs ht]
  have hsymm : s.eq t = t.eq s := hs.eq_comm ht
  refine ⟨?_, hcontent, fun _ _ => eq_of_perm, fun label => ⟨eq_toMap s t none label, ?_⟩,
    hs.eq_self, hsymm, hs.eq_trans ht⟩
  · rw [hcontent]
    exact forall_congr' fun key => (rel_get?_iff hs key).symm
  · rw [hsymm]
    exact eq_toMap t s label none

/-- A list of a number and a map from that number to a set. -/
def nested (label : Option Label) (number : Value) (elements : List Value) : Value :=
  .list label [number, .map none [(number, .set none elements)]]

theorem isComparable_nested (label : Option Label) {number : Value} {elements : List Value}
    (hkey : AreKeys [number]) (hnumber : number.IsComparable) (hkeys : AreKeys elements)
    (helements : ∀ v ∈ elements, v.IsComparable) : (nested label number elements).IsComparable := by
  have hmap : (Value.map none [(number, .set none elements)]).IsComparable :=
    Value.isComparable_map hkey
      (List.forall_mem_singleton.mpr ⟨hnumber, Value.isComparable_set hkeys helements⟩)
  exact Value.isComparable_list
    (List.forall_mem_cons.mpr ⟨hnumber, List.forall_mem_singleton.mpr hmap⟩)

/-- Settings that were made by hand. -/
def countedSettings : MergedSettings where
  entries := [("steps", nested none (.int 1) [.int 2, .text "x"]), ("size", .int 1)]
  sources := []

/-- Settings with other kinds of numbers in another order, from a document. -/
def measuredSettings : MergedSettings where
  entries := [
    ("size", .bool true),
    ("steps", nested (some ⟨0, 1⟩) (.float (.finite false unitsPerOne))
      [.text "x", .float (.finite false (2 * unitsPerOne))])]
  sources := [Path.ofText "settings.yml"]

theorem isComparable_countedSettings : countedSettings.toValue.IsComparable := by
  have hint : ∀ n, (Value.int n).IsComparable := fun _ => Value.isComparable_of_isScalar trivial nofun
  have htext : ∀ s, (Value.text s).IsComparable := fun _ =>
    Value.isComparable_of_isScalar trivial nofun
  have hsteps := isComparable_nested none (by decide +kernel) (hint 1) (by decide +kernel)
    (List.forall_mem_cons.mpr ⟨hint 2, List.forall_mem_singleton.mpr (htext "x")⟩)
  exact Value.isComparable_map (by decide +kernel) (List.forall_mem_cons.mpr
    ⟨⟨htext "steps", hsteps⟩, List.forall_mem_singleton.mpr ⟨htext "size", hint 1⟩⟩)

theorem isComparable_measuredSettings : measuredSettings.toValue.IsComparable := by
  have hfloat : ∀ units, (Value.float (.finite false units)).IsComparable := fun _ =>
    Value.isComparable_of_isScalar trivial nofun
  have htext : ∀ s, (Value.text s).IsComparable := fun _ =>
    Value.isComparable_of_isScalar trivial nofun
  have hsteps := isComparable_nested (some ⟨0, 1⟩) (by decide +kernel) (hfloat unitsPerOne)
    (by decide +kernel)
    (List.forall_mem_cons.mpr ⟨htext "x", List.forall_mem_singleton.mpr (hfloat (2 * unitsPerOne))⟩)
  exact Value.isComparable_map (by decide +kernel) (List.forall_mem_cons.mpr
    ⟨⟨htext "size", Value.isComparable_of_isScalar trivial nofun⟩,
      List.forall_mem_singleton.mpr ⟨htext "steps", hsteps⟩⟩)

theorem eq_comparesContent_otherKinds :
    countedSettings.toValue.IsComparable ∧ measuredSettings.toValue.IsComparable ∧
    countedSettings.eq measuredSettings = true ∧ measuredSettings.eq countedSettings = true ∧
    ∀ key, Option.Rel SameContent (countedSettings.get? key) (measuredSettings.get? key) := by
  obtain ⟨-, hcontent, -, -, -, hsymm, -⟩ :=
    eq_comparesContent isComparable_countedSettings isComparable_measuredSettings countedSettings
  have heq : countedSettings.eq measuredSettings = true := by decide +kernel
  exact ⟨isComparable_countedSettings, isComparable_measuredSettings, heq, hsymm ▸ heq,
    hcontent.mp heq⟩

end Merged
end Settings
end DevMachines
