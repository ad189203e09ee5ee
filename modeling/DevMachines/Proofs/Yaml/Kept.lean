import DevMachines.Proofs.Settings.Layers
import DevMachines.Proofs.Value.Parts
import DevMachines.Proofs.Yaml.Renumbering

/-!
# What every value of a document has

The value of a document is built node by node.  A node becomes a scalar or a collection of what its
parts become, or it only mentions a collection that it stands in.  So a property that scalars and
mentions have, and collections of values that have it, is one of every value that is read: `IsKept`
lists these cases, and `IsKept.always_readValue` is the induction.

The cases of sets and maps come with what is known of elements and keys.  Whatever is written, no two
of them are equal, because they are collected one after another and what comes again takes no place of
its own.  That makes well-madeness itself such a property (`always_readValue_isWellMade`).
-/

namespace DevMachines

open Settings (KeysDiffer)
open Value (AreKeys IsWellMade)

namespace Yaml

/-! ## Collecting entries -/

/-- Writing an entry of a map is setting a key, with the equality of values. -/
theorem insertEntry_eq_put (key value : Value) (es : List (Value × Value)) :
    Value.insertEntry key value es = Settings.put key value es := by
  induction es with
  | nil => rfl
  | cons e es ih =>
    rw [Value.insertEntry, Settings.put, ih]
    rfl

/-- The entries of a map are a layer over nothing. -/
theorem collectEntries_eq_overlay (es : List (Value × Value)) :
    collectEntries es = Settings.overlay [] es := by
  rw [collectEntries, Settings.overlay]
  congr 1
  funext merged e
  exact insertEntry_eq_put e.1 e.2 merged

/-- **The entries of a map have keys that differ**, whatever is written. -/
theorem keysDiffer_collectEntries (es : List (Value × Value)) : KeysDiffer (collectEntries es) := by
  have hnil : KeysDiffer ([] : List (Value × Value)) := List.Pairwise.nil
  rw [collectEntries_eq_overlay]
  exact hnil.overlay es

theorem forall_mem_collectEntries {P Q : Value → Prop} {es : List (Value × Value)}
    (h : ∀ e ∈ es, P e.1 ∧ Q e.2) : ∀ e ∈ collectEntries es, P e.1 ∧ Q e.2 := by
  refine List.foldlRecOn es _ (motive := fun acc : List (Value × Value) =>
    ∀ e ∈ acc, P e.1 ∧ Q e.2) (List.forall_mem_nil _) fun acc hacc e he => ?_
  exact forall_mem_insertEntry (h e he).1 (h e he).2 hacc

theorem areKeys_collectEntries {es : List (Value × Value)} (h : HaveKeys es) :
    AreKeys ((collectEntries es).map (·.1)) where
  isKey := by
    have hboth := forall_mem_collectEntries (P := fun key => key.isKey = true)
      (Q := fun _ => True) fun e he => ⟨h e he, trivial⟩
    exact List.forall_mem_map.mpr fun e he => (hboth e he).1
  differ := keysDiffer_collectEntries es

/-! ## Collecting elements -/

/-- The elements of a set are the keys of a map to nothing. -/
theorem collectElements_eq_keys (elements : List Value) : collectElements elements =
    Settings.keys (Settings.overlay [] (elements.map fun v => (v, ()))) := by
  suffices hall : ∀ d : List (Value × Unit),
      elements.foldl (fun acc v => Value.insertElement v acc) (Settings.keys d) =
        Settings.keys (Settings.overlay d (elements.map fun v => (v, ()))) from hall []
  induction elements with
  | nil => exact fun _ => rfl
  | cons v elements ih =>
    intro d
    have hinsert : Value.insertElement v (Settings.keys d) = Settings.keys (Settings.put v () d) :=
      (Settings.keys_put v () d).symm
    rw [List.foldl_cons, List.map_cons, Settings.overlay_cons, hinsert, ih]

theorem forall_mem_collectElements {P : Value → Prop} {elements : List Value}
    (h : ∀ v ∈ elements, P v) : ∀ v ∈ collectElements elements, P v := by
  refine List.foldlRecOn elements _ (motive := fun acc => ∀ v ∈ acc, P v) (List.forall_mem_nil _)
    fun acc hacc v hv => ?_
  rw [Value.insertElement]
  split
  · exact hacc
  · exact List.forall_mem_append.mpr ⟨hacc, List.forall_mem_singleton.mpr (h v hv)⟩

/-- **The elements of a set differ**, whatever is written. -/
theorem areKeys_collectElements {elements : List Value} (h : ∀ v ∈ elements, v.isKey = true) :
    AreKeys (collectElements elements) where
  isKey := forall_mem_collectElements h
  differ := by
    have hnil : KeysDiffer ([] : List (Value × Unit)) := List.Pairwise.nil
    rw [collectElements_eq_keys]
    exact hnil.overlay _

/-! ## Building -/

/-- A scalar is read as a scalar. -/
theorem always_scalarValue_isScalar (label : Label) (tag text : String) :
    Always Value.IsScalar (scalarValue label tag text) := by
  rw [scalarValue]
  split
  · exact always_ok trivial
  split
  · exact always_ok trivial
  split
  · exact always_map fun _ => trivial
  split
  · exact always_map fun _ => trivial
  split
  · exact always_map fun _ => trivial
  split
  · rw [timestampValue]
    split
    · exact always_error
    · dsimp only
      split <;> split
      all_goals first | exact always_ok trivial | exact always_error
  split
  · rw [octetsValue]
    split
    · split
      · exact always_ok trivial
      · exact always_error
    · exact always_error
  · exact always_error

theorem always_all {P : Value → Prop} {items : List (Built Value)}
    (h : ∀ b ∈ items, Always P b) :
    Always (fun values => ∀ v ∈ values, P v) (Built.all items) := by
  induction items with
  | nil => exact always_ok (List.forall_mem_nil _)
  | cons b items ih =>
    rw [List.forall_mem_cons] at h
    exact (always_both h.1 (ih h.2)).map fun both h => List.forall_mem_cons.mpr h

/-- A property of scalars and of collections of values that have it. -/
structure IsKept (P : Value → Prop) : Prop where
  scalar (label : Label) (tag text : String) : Always P (scalarValue label tag text)
  again (label : Label) : P (.again label)
  list (label : Option Label) (items : List Value) (h : ∀ v ∈ items, P v) : P (.list label items)
  pair (label : Option Label) (a b : Value) (ha : P a) (hb : P b) : P (.pair label a b)
  set (label : Option Label) (elements : List Value) (hkeys : AreKeys elements)
    (h : ∀ v ∈ elements, P v) : P (.set label elements)
  map (label : Option Label) (entries : List (Value × Value)) (hkeys : AreKeys (entries.map (·.1)))
    (h : ∀ e ∈ entries, P e.1 ∧ P e.2) : P (.map label entries)

namespace IsKept

variable {P : Value → Prop} (hP : IsKept P)

include hP

theorem always_buildPair {build : Node → Built Value} (hbuild : ∀ n, Always P (build n))
    (document : Node) (depth : Nat) (item : Node) :
    Always P (buildPair document build depth item) := by
  unfold buildPair
  split
  · exact (always_both (hbuild _) (hbuild _)).map fun both h => hP.pair _ _ _ h.1 h.2
  · exact always_error

/-- The values of all nodes have it if the values of their parts have. -/
theorem always_buildValue (number : Nat) (document : Node) (fuel depth : Nat) (path : List Nat)
    (n : Node) : Always P (buildValue number document fuel path depth n) := by
  induction fuel generalizing path depth n with
  | zero => exact always_error
  | succ fuel ih =>
    unfold buildValue
    extract_lets n node label tag path build entriesOf
    have hbuild : ∀ n, Always P (build n) := fun n => ih _ _ n
    have hscalar : ∀ text,
        Always P ((scalarValue label tag text).mapError fun f => (depth, f)) :=
      fun text => (hP.scalar label tag text).mapError _
    -- what else these stand for does not matter
    clear_value entriesOf build path label tag node n
    split
    · exact always_ok (hP.again label)
    split
    · exact always_error
    split
    · split
      · exact always_error
      split
      · split
        · exact always_error
        · exact hscalar _
      · exact hscalar _
    split
    · refine always_bind fun nodes => (always_buildEntries hbuild _ nodes).bind fun entries h => ?_
      exact always_ok (hP.map _ _ (areKeys_collectEntries h.1) (forall_mem_collectEntries h.2))
    split
    · refine always_bind fun nodes => (always_buildEntries hbuild _ nodes).bind fun entries h => ?_
      have hkeys := areKeys_collectElements (List.forall_mem_map.mpr h.1)
      have helements : ∀ v ∈ entries.map (·.1), P v :=
        List.forall_mem_map.mpr fun e he => (h.2 e he).1
      exact always_ok (hP.set _ _ hkeys (forall_mem_collectElements helements))
    split
    · split
      · refine (always_all fun b hb => ?_).map fun items => hP.list _ items
        obtain ⟨item, -, rfl⟩ := List.mem_map.mp hb
        exact hbuild item
      · refine (always_all fun b hb => ?_).map fun items => hP.list _ items
        obtain ⟨item, -, rfl⟩ := List.mem_map.mp hb
        exact hP.always_buildPair hbuild document _ item
    · exact always_error

/-- **What is kept when a value is built, every value of a document has.** -/
theorem always_readValue (number : Nat) (text : List Char) : Always P (readValue number text) := by
  unfold readValue
  split
  · exact always_error
  · exact always_ok (hP.scalar ⟨number, 0⟩ Tag.null "" _ rfl)
  · exact (hP.always_buildValue number _ _ _ _ _).mapError _

end IsKept

/-! ## Well-made values -/

theorem isKept_isWellMade : IsKept IsWellMade where
  scalar label tag text := fun v hv => by
    have hscalar := always_scalarValue_isScalar label tag text v hv
    exact (Value.everywhere_scalar_iff hscalar).mpr (Value.hasDistinctKeys_of_isScalar hscalar)
  again _ := Value.everywhere_again_iff.mpr trivial
  list _ _ h := Value.everywhere_list_iff.mpr ⟨trivial, h⟩
  pair _ _ _ ha hb := Value.everywhere_pair_iff.mpr ⟨trivial, ha, hb⟩
  set _ _ hkeys h := Value.everywhere_set_iff.mpr ⟨hkeys, h⟩
  map _ _ hkeys h := Value.everywhere_map_iff.mpr ⟨hkeys, h⟩

/-- **Every value of a document is well made.** -/
theorem always_readValue_isWellMade (number : Nat) (text : List Char) :
    Always IsWellMade (readValue number text) :=
  isKept_isWellMade.always_readValue number text

end Yaml
end DevMachines
