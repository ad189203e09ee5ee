import DevMachines.Proofs.Value.Unlabelled

/-!
# The parts of a value

Everything that a value is made of counts as a part of it: items, elements, keys and the values
of entries, at any depth.  (`Within` counts only what is written as a form of its own.)

`Value.byParts` is induction on a value, with a hypothesis for each direct part.

## Which values can be compared

The type has more values than there are.  In a set that was made by adding elements no two elements
are equal, in a map no two keys are, and both can be keys; `IsWellMade` says that of all parts of a
value.  `IsComparable` leaves out two more kinds of value, which do exist but are not equal to
themselves: not a number, and a collection that contains itself.
-/

namespace DevMachines
namespace Value

/-! ## Induction on the parts -/

theorem sizeOf_lt_of_mem_entries {k v : Value} {entries : List (Value × Value)}
    (h : (k, v) ∈ entries) : sizeOf k < sizeOf entries ∧ sizeOf v < sizeOf entries := by
  have hsize := List.sizeOf_lt_of_mem h
  rw [Prod.mk.sizeOf_spec] at hsize
  omega

/-- A property that a value has if all of its direct parts do is a property of every value. -/
@[elab_as_elim]
theorem byParts {motive : Value → Prop} (scalar : ∀ v, v.IsScalar → motive v)
    (list : ∀ label items, (∀ v ∈ items, motive v) → motive (.list label items))
    (pair : ∀ label a b, motive a → motive b → motive (.pair label a b))
    (set : ∀ label elements, (∀ v ∈ elements, motive v) → motive (.set label elements))
    (map : ∀ label entries, (∀ e ∈ entries, motive e.1 ∧ motive e.2) → motive (.map label entries))
    (again : ∀ label, motive (.again label)) : ∀ v, motive v
  | .list label items =>
      list label items fun v _ => byParts scalar list pair set map again v
  | .pair label a b =>
      pair label a b (byParts scalar list pair set map again a)
        (byParts scalar list pair set map again b)
  | .set label elements =>
      set label elements fun v _ => byParts scalar list pair set map again v
  | .map label entries =>
      map label entries fun (k, v) he =>
        have := sizeOf_lt_of_mem_entries he
        ⟨byParts scalar list pair set map again k, byParts scalar list pair set map again v⟩
  | .again label => again label
  | .null => scalar _ trivial
  | .bool _ => scalar _ trivial
  | .int _ => scalar _ trivial
  | .float _ => scalar _ trivial
  | .text _ => scalar _ trivial
  | .octets _ => scalar _ trivial
  | .date .. => scalar _ trivial
  | .moment .. => scalar _ trivial

/-! ## Parts -/

/-- Is a value another one, or a part of it at any depth? -/
inductive PartOf (part : Value) : Value → Prop
  | self : PartOf part part
  | item {label : Option Label} {items : List Value} {v : Value} (hv : v ∈ items)
      (h : PartOf part v) : PartOf part (.list label items)
  | first {label : Option Label} {a b : Value} (h : PartOf part a) : PartOf part (.pair label a b)
  | second {label : Option Label} {a b : Value} (h : PartOf part b) : PartOf part (.pair label a b)
  | element {label : Option Label} {elements : List Value} {v : Value} (hv : v ∈ elements)
      (h : PartOf part v) : PartOf part (.set label elements)
  | key {label : Option Label} {entries : List (Value × Value)} {e : Value × Value}
      (he : e ∈ entries) (h : PartOf part e.1) : PartOf part (.map label entries)
  | member {label : Option Label} {entries : List (Value × Value)} {e : Value × Value}
      (he : e ∈ entries) (h : PartOf part e.2) : PartOf part (.map label entries)

theorem PartOf.trans {u v w : Value} (huv : PartOf u v) (hvw : PartOf v w) : PartOf u w := by
  induction hvw with
  | self => exact huv
  | item hv _ ih => exact .item hv ih
  | first _ ih => exact .first ih
  | second _ ih => exact .second ih
  | element hv _ ih => exact .element hv ih
  | key he _ ih => exact .key he ih
  | member he _ ih => exact .member he ih

/-- A scalar has no parts besides itself. -/
theorem PartOf.eq_of_isScalar {part v : Value} (h : PartOf part v) (hv : v.IsScalar) : part = v := by
  cases h with
  | self => rfl
  | item | first | second | element | key | member => exact absurd hv id

/-! ## Properties of all parts -/

/-- Does a value have a property together with all of its parts? -/
def Everywhere (P : Value → Prop) (v : Value) : Prop := ∀ part, PartOf part v → P part

section Everywhere

variable {P : Value → Prop} {v : Value} {label : Option Label}

theorem Everywhere.of_partOf {part : Value} (h : Everywhere P v) (hpart : PartOf part v) :
    Everywhere P part := fun _ hsmaller => h _ (hsmaller.trans hpart)

theorem everywhere_scalar_iff (hv : v.IsScalar) : Everywhere P v ↔ P v := by
  refine ⟨fun h => h v .self, fun h part hpart => ?_⟩
  rw [hpart.eq_of_isScalar hv]
  exact h

theorem everywhere_again_iff {label : Label} : Everywhere P (.again label) ↔ P (.again label) := by
  refine ⟨fun h => h _ .self, ?_⟩
  rintro h part ⟨⟩
  exact h

theorem everywhere_list_iff {items : List Value} : Everywhere P (.list label items) ↔
    P (.list label items) ∧ ∀ v ∈ items, Everywhere P v := by
  refine ⟨fun h => ⟨h _ .self, fun v hv => h.of_partOf (.item hv .self)⟩, ?_⟩
  rintro ⟨hself, hitems⟩ part (_ | ⟨hv, hpart⟩)
  · exact hself
  · exact hitems _ hv part hpart

theorem everywhere_pair_iff {a b : Value} : Everywhere P (.pair label a b) ↔
    P (.pair label a b) ∧ Everywhere P a ∧ Everywhere P b := by
  refine ⟨fun h => ⟨h _ .self, h.of_partOf (.first .self), h.of_partOf (.second .self)⟩, ?_⟩
  rintro ⟨hself, ha, hb⟩ part (_ | _ | hpart | hpart)
  · exact hself
  · exact ha part hpart
  · exact hb part hpart

theorem everywhere_set_iff {elements : List Value} : Everywhere P (.set label elements) ↔
    P (.set label elements) ∧ ∀ v ∈ elements, Everywhere P v := by
  refine ⟨fun h => ⟨h _ .self, fun v hv => h.of_partOf (.element hv .self)⟩, ?_⟩
  rintro ⟨hself, helements⟩ part (_ | _ | _ | _ | ⟨hv, hpart⟩)
  · exact hself
  · exact helements _ hv part hpart

theorem everywhere_map_iff {entries : List (Value × Value)} : Everywhere P (.map label entries) ↔
    P (.map label entries) ∧ ∀ e ∈ entries, Everywhere P e.1 ∧ Everywhere P e.2 := by
  refine ⟨fun h => ⟨h _ .self, fun e he =>
    ⟨h.of_partOf (.key he .self), h.of_partOf (.member he .self)⟩⟩, ?_⟩
  rintro ⟨hself, hentries⟩ part (_ | _ | _ | _ | _ | ⟨he, hpart⟩ | ⟨he, hpart⟩)
  · exact hself
  · exact (hentries _ he).1 part hpart
  · exact (hentries _ he).2 part hpart

end Everywhere

/-! ## Values that can be compared -/

/-- Can values be the elements of a set, or the keys of a map?  All of them can be keys, and none is
equal to one that comes later. -/
structure AreKeys (keys : List Value) : Prop where
  isKey : ∀ k ∈ keys, k.isKey = true
  differ : keys.Pairwise fun k k' => eq k k' = false

instance (keys : List Value) : Decidable (AreKeys keys) :=
  decidable_of_iff ((∀ k ∈ keys, k.isKey = true) ∧ keys.Pairwise fun k k' => eq k k' = false)
    ⟨fun h => ⟨h.1, h.2⟩, fun h => ⟨h.isKey, h.differ⟩⟩

/-- If a value is a set or a map, do its elements or keys differ? -/
def HasDistinctKeys : Value → Prop
  | .set _ elements => AreKeys elements
  | .map _ entries => AreKeys (entries.map (·.1))
  | _ => True

theorem hasDistinctKeys_of_isScalar {v : Value} (hv : v.IsScalar) : HasDistinctKeys v := by
  cases v with
  | null | bool | int | float | text | octets | date | moment => trivial
  | list | pair | set | map | again => exact absurd hv id

/-- Do the sets and maps in a value have elements and keys that differ? -/
def IsWellMade (v : Value) : Prop := Everywhere HasDistinctKeys v

/-- Is a value well made, with no collection inside itself and nothing that is not a number? -/
structure IsComparable (v : Value) : Prop where
  wellMade : v.IsWellMade
  unrolled : Everywhere (fun part => ∀ label, part ≠ .again label) v
  numeric : Everywhere (· ≠ .float .nan) v

theorem IsComparable.of_partOf {part v : Value} (h : v.IsComparable) (hpart : PartOf part v) :
    part.IsComparable where
  wellMade := h.wellMade.of_partOf hpart
  unrolled := h.unrolled.of_partOf hpart
  numeric := h.numeric.of_partOf hpart

section Comparable

variable {label : Option Label}

theorem isComparable_of_isScalar {v : Value} (hv : v.IsScalar) (hnan : v ≠ .float .nan) :
    v.IsComparable where
  wellMade := (everywhere_scalar_iff hv).mpr (hasDistinctKeys_of_isScalar hv)
  unrolled := (everywhere_scalar_iff hv).mpr fun _ hagain => by rw [hagain] at hv; exact hv
  numeric := (everywhere_scalar_iff hv).mpr hnan

theorem isComparable_list {items : List Value} (h : ∀ v ∈ items, v.IsComparable) :
    (list label items).IsComparable where
  wellMade := everywhere_list_iff.mpr ⟨trivial, fun v hv => (h v hv).wellMade⟩
  unrolled := everywhere_list_iff.mpr ⟨nofun, fun v hv => (h v hv).unrolled⟩
  numeric := everywhere_list_iff.mpr ⟨nofun, fun v hv => (h v hv).numeric⟩

theorem isComparable_set {elements : List Value} (hkeys : AreKeys elements)
    (h : ∀ v ∈ elements, v.IsComparable) : (set label elements).IsComparable where
  wellMade := everywhere_set_iff.mpr ⟨hkeys, fun v hv => (h v hv).wellMade⟩
  unrolled := everywhere_set_iff.mpr ⟨nofun, fun v hv => (h v hv).unrolled⟩
  numeric := everywhere_set_iff.mpr ⟨nofun, fun v hv => (h v hv).numeric⟩

theorem isComparable_map {entries : List (Value × Value)} (hkeys : AreKeys (entries.map (·.1)))
    (h : ∀ e ∈ entries, e.1.IsComparable ∧ e.2.IsComparable) :
    (map label entries).IsComparable where
  wellMade := everywhere_map_iff.mpr
    ⟨hkeys, fun e he => ⟨(h e he).1.wellMade, (h e he).2.wellMade⟩⟩
  unrolled := everywhere_map_iff.mpr
    ⟨nofun, fun e he => ⟨(h e he).1.unrolled, (h e he).2.unrolled⟩⟩
  numeric := everywhere_map_iff.mpr
    ⟨nofun, fun e he => ⟨(h e he).1.numeric, (h e he).2.numeric⟩⟩

end Comparable

end Value
end DevMachines
