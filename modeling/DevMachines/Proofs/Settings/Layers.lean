import DevMachines.Settings.Merged

/-!
# What a layer of settings does to the one below it

`overlay` goes through the upper layer entry by entry, and `put` either replaces a value in its
place or adds an entry at the end.  This file says what comes out of that at once: the value of each
key (`lookup_overlay`), and the keys in their order (`keys_overlay`).

## Why the upper layer must not repeat a key

Entries are put one after another, so of two entries with the same key the last one would win, while
a look-up finds the first.  A document names each key once (`nodup_keys_ofText`), and for such
layers the two agree.  The lower layer may be anything.
-/

namespace DevMachines
namespace Settings

variable {κ ν : Type}

/-- The keys of a layer, in order. -/
def keys (d : List (κ × ν)) : List κ := d.map (·.1)

@[simp] theorem keys_nil : keys ([] : List (κ × ν)) = [] := rfl

@[simp] theorem keys_cons (k : κ) (v : ν) (d : List (κ × ν)) : keys ((k, v) :: d) = k :: keys d :=
  rfl

/-! ## Keys that differ

This part needs nothing of how keys are compared, so it is also about the keys of a map, of which
texts are only one kind. -/

section Differing

variable [BEq κ]

/-- Is no key equal to one that comes later? -/
def KeysDiffer (d : List (κ × ν)) : Prop := (keys d).Pairwise fun a b => (a == b) = false

/-- A key that is there keeps its place, and a new one comes last. -/
theorem keys_put (key : κ) (value : ν) (d : List (κ × ν)) :
    keys (put key value d) = if (keys d).any (· == key) then keys d else keys d ++ [key] := by
  induction d with
  | nil => rfl
  | cons e d ih =>
    obtain ⟨first, v⟩ := e
    rw [put, keys_cons, List.any_cons]
    by_cases hfirst : (first == key) = true
    · rw [if_pos hfirst, hfirst, Bool.true_or, if_pos rfl, keys_cons]
    · rw [if_neg hfirst, Bool.eq_false_iff.mpr hfirst, Bool.false_or, keys_cons, ih]
      split <;> rfl

theorem KeysDiffer.put {d : List (κ × ν)} (h : KeysDiffer d) (key : κ) (value : ν) :
    KeysDiffer (put key value d) := by
  rw [KeysDiffer, keys_put]
  split
  · exact h
  · next hnone =>
    rw [Bool.not_eq_true, List.any_eq_false] at hnone
    refine List.pairwise_append.mpr ⟨h, List.pairwise_singleton _ _, fun a ha b hb => ?_⟩
    obtain rfl := List.mem_singleton.mp hb
    exact Bool.eq_false_iff.mpr (hnone a ha)

/-- **Whatever is put on top, keys that differ go on to differ.** -/
theorem KeysDiffer.overlay {d : List (κ × ν)} (h : KeysDiffer d) (o : List (κ × ν)) :
    KeysDiffer (overlay d o) := by
  induction o generalizing d with
  | nil => exact h
  | cons e o ih => exact ih (h.put e.1 e.2)

theorem keysDiffer_iff_nodup [LawfulBEq κ] {d : List (κ × ν)} : KeysDiffer d ↔ (keys d).Nodup := by
  refine List.Pairwise.iff fun a b => ?_
  rw [beq_eq_false_iff_ne]

end Differing

section Layers

variable [BEq κ] [LawfulBEq κ]

/-! ## Looking up -/

/-- Setting a key leaves the values of the others alone. -/
theorem lookup_put_of_ne {key k : κ} (h : k ≠ key) (value : ν) (d : List (κ × ν)) :
    (put key value d).lookup k = d.lookup k := by
  have hkey : (k == key) = false := beq_eq_false_iff_ne.mpr h
  induction d with
  | nil => rw [put, List.lookup_cons, hkey]
  | cons e d ih =>
    obtain ⟨first, v⟩ := e
    rw [put]
    by_cases hfirst : (first == key) = true
    · obtain rfl := eq_of_beq hfirst
      rw [if_pos hfirst, List.lookup_cons, List.lookup_cons, hkey]
    · rw [if_neg hfirst, List.lookup_cons, List.lookup_cons, ih]

/-- A key that a layer does not have is not found in it. -/
theorem lookup_eq_none_iff {k : κ} {d : List (κ × ν)} : d.lookup k = none ↔ k ∉ keys d := by
  rw [List.lookup_eq_none_iff, keys]
  constructor
  · intro h hmem
    obtain ⟨entry, hentry, rfl⟩ := List.mem_map.mp hmem
    exact absurd rfl (bne_iff_ne.mp (h entry hentry))
  · intro h entry hentry
    refine bne_iff_ne.mpr ?_
    rintro rfl
    exact h (List.mem_map_of_mem hentry)

/-- In a layer that names each key once, an entry is found by its key. -/
theorem lookup_eq_some_iff_mem {d : List (κ × ν)} (hd : (keys d).Nodup) {k : κ} {v : ν} :
    d.lookup k = some v ↔ (k, v) ∈ d := by
  induction d with
  | nil => simp
  | cons e d ih =>
    obtain ⟨key, value⟩ := e
    rw [keys_cons, List.nodup_cons] at hd
    rw [List.lookup_cons, List.mem_cons, Prod.mk.injEq]
    by_cases hk : k = key
    · subst hk
      have habsent : (k, v) ∉ d := fun hmem => hd.1 (List.mem_map_of_mem hmem)
      rw [beq_self_eq_true]
      simp [habsent, eq_comm]
    · rw [beq_eq_false_iff_ne.mpr hk, ih hd.2]
      simp [hk]

/-- **The value of a key is that of the upper layer, and without one that of the lower layer.** -/
theorem lookup_overlay (d : List (κ × ν)) {o : List (κ × ν)} (ho : (keys o).Nodup) (k : κ) :
    (overlay d o).lookup k = (o.lookup k).or (d.lookup k) := by
  induction o generalizing d with
  | nil => rfl
  | cons e o ih =>
    obtain ⟨key, value⟩ := e
    rw [keys_cons, List.nodup_cons] at ho
    rw [overlay_cons, ih _ ho.2, List.lookup_cons]
    by_cases hk : k = key
    · subst hk
      rw [lookup_eq_none_iff.mpr ho.1, lookup_put_self, beq_self_eq_true]
      rfl
    · rw [lookup_put_of_ne hk, beq_eq_false_iff_ne.mpr hk]

/-! ## Keys and their order -/

/-- **The keys of the lower layer keep their order, and the new ones follow in theirs.** -/
theorem keys_overlay (d : List (κ × ν)) {o : List (κ × ν)} (ho : (keys o).Nodup) :
    keys (overlay d o) = keys d ++ (keys o).filter (!(keys d).contains ·) := by
  induction o generalizing d with
  | nil => exact (List.append_nil _).symm
  | cons e o ih =>
    obtain ⟨key, value⟩ := e
    rw [keys_cons, List.nodup_cons] at ho
    rw [overlay_cons, ih _ ho.2, keys_cons]
    have hany : (keys d).any (· == key) = (keys d).contains key := by
      rw [Bool.eq_iff_iff, List.any_eq_true, List.contains_iff_mem]
      exact ⟨fun ⟨k, hk, heq⟩ => eq_of_beq heq ▸ hk, fun hk => ⟨key, hk, beq_self_eq_true key⟩⟩
    rw [keys_put, hany]
    split
    · next hmem => rw [List.filter_cons_of_neg (by simpa using hmem)]
    · next hmem =>
      rw [List.filter_cons_of_pos (by simpa using hmem), List.append_assoc, List.singleton_append]
      -- the key itself does not come again, so that it is there now changes nothing
      have hsame : (keys o).filter (!(keys d ++ [key]).contains ·) =
          (keys o).filter (!(keys d).contains ·) := by
        refine List.filter_congr fun k hk => ?_
        have hne : k ≠ key := fun heq => ho.1 (heq ▸ hk)
        simp [hne]
      rw [hsame]

end Layers

end Settings
end DevMachines
