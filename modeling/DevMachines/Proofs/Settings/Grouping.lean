import DevMachines.Proofs.Settings.Layers
import DevMachines.Settings.Document
import Mathlib.Data.List.Nodup
import Mathlib.Logic.Relation

/-!
# Layers of settings in any grouping

Layers that name each key once form a monoid, with the empty layer as its unit, and putting a layer
on top a second time changes nothing.  All of this is about the entries as they stand, with their
order.  Two layers commute, up to the order of their entries, exactly if they agree on their common
keys.

Main statement: `overlay_laws`.

## What the grouping rests on

`overlay` sets the keys of the upper layer one after another, so everything comes down to one key:
setting it in the upper layer first is the same as setting it in the result (`overlay_put`).  If the
upper layer has the key, that moves an assignment past the entries that come after it, which is
allowed because the key is there already and keeps its place (`put_overlay`).
-/

namespace DevMachines
namespace Settings

section Layers

variable {κ ν : Type} [BEq κ] [LawfulBEq κ] {key other : κ} {d o : List (κ × ν)}

/-! ## Setting keys one after another -/

omit [LawfulBEq κ] in
theorem mem_keys_put (h : key ∈ keys d) (value : ν) : key ∈ keys (put other value d) := by
  rw [keys_put]
  split
  · exact h
  · exact List.mem_append_left _ h

/-- A key that is set is there. -/
theorem mem_keys_put_self (key : κ) (value : ν) (d : List (κ × ν)) :
    key ∈ keys (put key value d) := by
  by_contra habsent
  have hfound := lookup_put_self key value d
  rw [lookup_eq_none_iff.mpr habsent] at hfound
  cases hfound

/-- Of two values that are set under one key the second one stays. -/
theorem put_put_self (key : κ) (first second : ν) (d : List (κ × ν)) :
    put key second (put key first d) = put key second d := by
  induction d with
  | nil => rw [put, put, put, if_pos (beq_self_eq_true key)]
  | cons e d ih =>
    obtain ⟨k, v⟩ := e
    by_cases hk : (k == key) = true
    · rw [put, if_pos hk, put, if_pos hk, put, if_pos hk]
    · rw [put, if_neg hk, put, if_neg hk, put, if_neg hk, ih]

/-- A key that is there may as well be set before another one: it keeps its place. -/
theorem put_put_of_mem (hmem : key ∈ keys d) (hne : key ≠ other) (value value' : ν) :
    put key value (put other value' d) = put other value' (put key value d) := by
  induction d with
  | nil => exact absurd hmem List.not_mem_nil
  | cons e d ih =>
    obtain ⟨k, v⟩ := e
    by_cases hk : k = key
    · subst hk
      have hother : ¬ (k == other) = true := fun heq => hne (eq_of_beq heq)
      have hself : (k == k) = true := beq_self_eq_true k
      rw [put, if_neg hother, put, if_pos hself, put, if_pos hself, put, if_neg hother]
    · have hrest : key ∈ keys d := (List.mem_cons.mp hmem).resolve_left fun heq => hk heq.symm
      have hkey : ¬ (k == key) = true := fun heq => hk (eq_of_beq heq)
      by_cases hother : (k == other) = true
      · rw [put, if_pos hother, put, if_neg hkey, put, if_neg hkey, put, if_pos hother]
      · rw [put, if_neg hother, put, if_neg hkey, put, if_neg hkey, put, if_neg hother, ih hrest]

/-- Setting a key to the value that it has changes nothing. -/
theorem put_of_lookup {value : ν} (h : d.lookup key = some value) : put key value d = d := by
  induction d with
  | nil => cases h
  | cons e d ih =>
    obtain ⟨k, v⟩ := e
    by_cases hk : k = key
    · subst hk
      rw [List.lookup_cons, beq_self_eq_true] at h
      rw [put, if_pos (beq_self_eq_true k), ← Option.some.inj h]
    · have hother : (key == k) = false := beq_eq_false_iff_ne.mpr fun heq => hk heq.symm
      rw [List.lookup_cons, hother] at h
      rw [put, if_neg fun heq => hk (eq_of_beq heq), ih h]

/-! ## Setting a key before and after a layer -/

/-- A key that is there, and that the upper layer does not have, may be set before or after it. -/
theorem put_overlay (hmem : key ∈ keys d) (habsent : key ∉ keys o) (value : ν) :
    put key value (overlay d o) = overlay (put key value d) o := by
  induction o generalizing d with
  | nil => rfl
  | cons e o ih =>
    obtain ⟨k, v⟩ := e
    rw [keys_cons, List.mem_cons, not_or] at habsent
    rw [overlay_cons, overlay_cons, ih (mem_keys_put hmem v) habsent.2,
      put_put_of_mem hmem habsent.1]

/-- **A key may be set in the upper layer or in the result.** -/
theorem overlay_put (ho : (keys o).Nodup) (d : List (κ × ν)) (key : κ) (value : ν) :
    overlay d (put key value o) = put key value (overlay d o) := by
  induction o generalizing d with
  | nil => rfl
  | cons e o ih =>
    obtain ⟨k, v⟩ := e
    rw [keys_cons, List.nodup_cons] at ho
    by_cases hk : k = key
    · subst hk
      rw [put, if_pos (beq_self_eq_true k), overlay_cons, overlay_cons,
        put_overlay (mem_keys_put_self k v d) ho.1, put_put_self]
    · rw [put, if_neg fun heq => hk (eq_of_beq heq), overlay_cons, overlay_cons, ih ho.2]

/-! ## The laws of layers -/

theorem nodup_keys_put (hd : (keys d).Nodup) (key : κ) (value : ν) :
    (keys (put key value d)).Nodup :=
  keysDiffer_iff_nodup.mp ((keysDiffer_iff_nodup.mpr hd).put key value)

/-- A layer over one that names each key once names each key once, too. -/
theorem nodup_keys_overlay (hd : (keys d).Nodup) (o : List (κ × ν)) : (keys (overlay d o)).Nodup :=
  keysDiffer_iff_nodup.mp ((keysDiffer_iff_nodup.mpr hd).overlay o)

/-- **Three layers may be put together in either grouping.** -/
theorem overlay_assoc {o : List (κ × ν)} (ho : (keys o).Nodup) (d top : List (κ × ν)) :
    overlay (overlay d o) top = overlay d (overlay o top) := by
  induction top generalizing o with
  | nil => rfl
  | cons e top ih =>
    rw [overlay_cons, overlay_cons, ← ih (nodup_keys_put ho e.1 e.2), overlay_put ho]

/-- A new key comes last. -/
theorem put_of_not_mem (h : key ∉ keys d) (value : ν) : put key value d = d ++ [(key, value)] := by
  induction d with
  | nil => rfl
  | cons e d ih =>
    obtain ⟨k, v⟩ := e
    rw [keys_cons, List.mem_cons, not_or] at h
    rw [put, if_neg fun heq => h.1 (eq_of_beq heq).symm, ih h.2, List.cons_append]

/-- New keys come last, in their order. -/
theorem overlay_of_disjoint (ho : (keys o).Nodup) (h : ∀ key ∈ keys o, key ∉ keys d) :
    overlay d o = d ++ o := by
  induction o generalizing d with
  | nil => exact (List.append_nil d).symm
  | cons e o ih =>
    obtain ⟨key, value⟩ := e
    rw [keys_cons, List.nodup_cons] at ho
    rw [keys_cons, List.forall_mem_cons] at h
    rw [overlay_cons, put_of_not_mem h.1, ih ho.2, List.append_assoc, List.singleton_append]
    intro k hk
    rw [keys, List.map_append, List.mem_append, not_or]
    refine ⟨h.2 k hk, fun hlast => ho.1 ?_⟩
    obtain rfl := List.mem_singleton.mp hlast
    exact hk

/-- **Over nothing, a layer is itself.** -/
theorem nil_overlay (ho : (keys o).Nodup) : overlay [] o = o :=
  overlay_of_disjoint ho fun _ _ => List.not_mem_nil

/-- A layer whose entries are all there changes nothing. -/
theorem overlay_of_lookup (h : ∀ e ∈ o, d.lookup e.1 = some e.2) : overlay d o = d := by
  induction o with
  | nil => rfl
  | cons e o ih =>
    rw [List.forall_mem_cons] at h
    rw [overlay_cons, put_of_lookup h.1, ih h.2]

/-- **A layer that is put on top again changes nothing.** -/
theorem overlay_overlay_self (ho : (keys o).Nodup) (d : List (κ × ν)) :
    overlay (overlay d o) o = overlay d o := by
  refine overlay_of_lookup fun e he => ?_
  rw [lookup_overlay d ho, (lookup_eq_some_iff_mem ho).mpr he]
  rfl

/-! ## Layers that commute -/

/-- **Two layers commute exactly if they agree on their common keys.**  What it means that two
values agree is left open: it may be any relation in which each value agrees with itself. -/
theorem rel_lookup_overlay_iff (agree : ν → ν → Prop) (hagree : ∀ v, agree v v)
    (hd : (keys d).Nodup) (ho : (keys o).Nodup) :
    (∀ key, Option.Rel agree ((overlay d o).lookup key) ((overlay o d).lookup key)) ↔
      ∀ key v w, d.lookup key = some v → o.lookup key = some w → agree w v := by
  refine forall_congr' fun key => ?_
  rw [lookup_overlay d ho, lookup_overlay o hd]
  cases d.lookup key with
  | none =>
    cases o.lookup key with
    | none => simp
    | some w => simp [Option.rel_some_some, hagree]
  | some v =>
    cases o.lookup key with
    | none => simp [Option.rel_some_some, hagree]
    | some w => simp [Option.rel_some_some]

/-- Layers that name each key once have the same entries exactly if they have the same values. -/
theorem perm_iff_lookup_eq (hd : (keys d).Nodup) (ho : (keys o).Nodup) :
    d.Perm o ↔ ∀ key, d.lookup key = o.lookup key := by
  rw [List.perm_ext_iff_of_nodup hd.of_map ho.of_map]
  constructor
  · intro h key
    refine Option.ext fun value => ?_
    rw [lookup_eq_some_iff_mem hd, lookup_eq_some_iff_mem ho, h]
  · rintro h ⟨key, value⟩
    rw [← lookup_eq_some_iff_mem hd, ← lookup_eq_some_iff_mem ho, h]

/-- **Up to their order, the entries are the same in both orders of the layers exactly if the layers
have the same values under their common keys.** -/
theorem perm_overlay_iff (hd : (keys d).Nodup) (ho : (keys o).Nodup) :
    (overlay d o).Perm (overlay o d) ↔
      ∀ key v w, d.lookup key = some v → o.lookup key = some w → w = v := by
  have hrel : ∀ x y : Option ν, Option.Rel (fun w v => w = v) x y ↔ x = y := by
    intro x y
    cases x <;> cases y <;> simp
  rw [perm_iff_lookup_eq (nodup_keys_overlay hd o) (nodup_keys_overlay ho d),
    ← rel_lookup_overlay_iff (fun w v => w = v) (fun _ => rfl) hd ho]
  exact forall_congr' fun key => (hrel _ _).symm

end Layers

/-! ## Settings in any grouping -/

/-- **Settings may be merged in any grouping.**  Settings that name each key once form a monoid,
with all entries in their order: what is merged names each key once, too; the grouping does not
matter; without entries a layer changes nothing, on either side; and a layer that is put on top
again changes nothing.  Two layers commute, up to the order of the entries, exactly if they agree on
their common keys, whether that means the same value or values that agree in any weaker sense. -/
theorem overlay_laws {a b : Entries} (ha : (keys a).Nodup) (hb : (keys b).Nodup) (c : Entries) :
    (keys (overlay a b)).Nodup ∧
    overlay (overlay a b) c = overlay a (overlay b c) ∧
    overlay a [] = a ∧ overlay [] a = a ∧
    overlay (overlay a b) b = overlay a b ∧
    ((overlay a b).Perm (overlay b a) ↔
      ∀ key v w, a.lookup key = some v → b.lookup key = some w → w = v) ∧
    ∀ agree : Value → Value → Prop, (∀ v, agree v v) →
      ((∀ key, Option.Rel agree ((overlay a b).lookup key) ((overlay b a).lookup key)) ↔
        ∀ key v w, a.lookup key = some v → b.lookup key = some w → agree w v) :=
  ⟨nodup_keys_overlay ha b, overlay_assoc hb a c, overlay_nil a, nil_overlay ha,
    overlay_overlay_self hb a, perm_overlay_iff ha hb,
    fun agree hagree => rel_lookup_overlay_iff agree hagree ha hb⟩

/-- Settings as they are shipped. -/
def shippedLayer : Entries := [("box", .text "jammy64"), ("memory", .int 2048)]

/-- Settings of a user, who wants more memory. -/
def ownLayer : Entries := [("cpus", .int 4), ("memory", .int 4096)]

/-- Settings for one occasion. -/
def lateLayer : Entries := [("memory", .null), ("note", .text "demo"), ("cpus", .int 8)]

/-- Three layers come to the same in either grouping, but the first two do not commute. -/
theorem overlay_laws_threeLayers :
    (keys shippedLayer).Nodup ∧ (keys ownLayer).Nodup ∧
      overlay (overlay shippedLayer ownLayer) lateLayer =
        overlay shippedLayer (overlay ownLayer lateLayer) ∧
      ¬ (overlay shippedLayer ownLayer).Perm (overlay ownLayer shippedLayer) := by
  have hshipped : (keys shippedLayer).Nodup := by decide
  have hown : (keys ownLayer).Nodup := by decide
  obtain ⟨-, hgrouping, -, -, -, hcommute, -⟩ := overlay_laws hshipped hown lateLayer
  refine ⟨hshipped, hown, hgrouping, fun hperm => ?_⟩
  have hmemory : Value.int 4096 = Value.int 2048 := hcommute.mp hperm "memory" _ _ rfl rfl
  exact absurd (Value.int.inj hmemory) (by decide)

end Settings
end DevMachines
