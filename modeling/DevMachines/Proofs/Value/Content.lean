import DevMachines.Proofs.Matching
import DevMachines.Proofs.Value.Parts

/-!
# What a value says

`SameContent` is the equality of values as a relation, with no procedure in it.  Two scalars have the
same content if they say the same: what a scalar says is a `Scalar`, in which all numbers are of one
kind, so that true, 1 and 1.0 say the same.  Two lists have the same content if their items have, place
by place, and two sets or two maps if their elements or entries can be paired off so, in any order.

As every rule speaks of the parts only by their content, values that differ somewhere deep inside, in
the kind of a number or in the order of a map, have the same content as a whole.

Main statements: `SameContent.symm`, `SameContent.trans`, `IsComparable.sameContent_self`.
-/

namespace DevMachines

/-! ## Scalars -/

/-- How much a number is: a whole number of units of `2 ^ -1074`, of which `unitsPerOne` make one, or
an infinity. -/
inductive Amount where
  | units (n : Int)
  | infinite (negative : Bool)
  deriving DecidableEq, Repr

/-- The amount of a double.  Not a number is no amount. -/
def Binary64.amount? : Binary64 → Option Amount
  | .nan => none
  | .infinite negative => some (.infinite negative)
  | .finite negative units => some (.units (signedUnits negative units))

/-- The amount of a number. -/
def Number.amount? : Number → Option Amount
  | .exact n => some (.units (n * Binary64.unitsPerOne))
  | .double x => x.amount?

/-- What a scalar says.  A moment with an offset is a point in time, and one without is the reading of
a clock. -/
inductive Scalar where
  | null
  | number (a : Amount)
  | text (s : String)
  | octets (bs : Text.Octets)
  | date (d : Date)
  | moment (isPoint : Bool) (seconds : Int) (microsecond : Nat)
  deriving DecidableEq, Repr

namespace Value

/-- What a value says, if it is a scalar that is equal to itself.  A truth value says one or zero. -/
def scalar? : Value → Option Scalar
  | .null => some .null
  | .bool b => (Number.exact (if b then 1 else 0)).amount?.map .number
  | .int n => (Number.exact n).amount?.map .number
  | .float x => (Number.double x).amount?.map .number
  | .text s => some (.text s)
  | .octets bs => some (.octets bs)
  | .date _ d => some (.date d)
  | .moment _ m => some (.moment m.offset.isSome m.instant m.microsecond)
  | _ => none

theorem isScalar_of_scalar? {v : Value} {s : Scalar} (h : v.scalar? = some s) : v.IsScalar := by
  cases v with
  | list | pair | set | map | again => cases h
  | null | bool | int | float | text | octets | date | moment => trivial

/-- Every scalar says something, except what is not a number. -/
theorem exists_scalar? {v : Value} (hv : v.IsScalar) (hnan : v ≠ .float .nan) :
    ∃ s, v.scalar? = some s := by
  cases v with
  | float x =>
    cases x with
    | nan => exact absurd rfl hnan
    | infinite | finite => exact ⟨_, rfl⟩
  | null | bool | int | text | octets | date | moment => exact ⟨_, rfl⟩
  | list | pair | set | map | again => exact absurd hv id

/-! ## Same content -/

/-- Do two values have the same content?  Labels do not count, nor does the order of a set or a map. -/
inductive SameContent : Value → Value → Prop
  | scalar {v w : Value} {s : Scalar} (hv : v.scalar? = some s) (hw : w.scalar? = some s) :
      SameContent v w
  | list {label label' : Option Label} {xs ys : List Value} (h : List.Forall₂ SameContent xs ys) :
      SameContent (.list label xs) (.list label' ys)
  | pair {label label' : Option Label} {a b c d : Value} (hfirst : SameContent a c)
      (hsecond : SameContent b d) : SameContent (.pair label a b) (.pair label' c d)
  | set {label label' : Option Label} {xs partners ys : List Value}
      (h : List.Forall₂ SameContent xs partners) (hperm : partners.Perm ys) :
      SameContent (.set label xs) (.set label' ys)
  | map {label label' : Option Label} {xs partners ys : List (Value × Value)}
      (hkeys : List.Forall₂ SameContent (xs.map (·.1)) (partners.map (·.1)))
      (hvalues : List.Forall₂ SameContent (xs.map (·.2)) (partners.map (·.2)))
      (hperm : partners.Perm ys) : SameContent (.map label xs) (.map label' ys)

/-- Do two entries have keys and values with the same content? -/
def SameEntry (e f : Value × Value) : Prop := SameContent e.1 f.1 ∧ SameContent e.2 f.2

section Shapes

variable {label : Option Label} {v w : Value}

theorem sameContent_scalar_iff (hv : v.IsScalar) :
    SameContent v w ↔ ∃ s, v.scalar? = some s ∧ w.scalar? = some s := by
  constructor
  · intro h
    cases h with
    | scalar hv hw => exact ⟨_, hv, hw⟩
    | list | pair | set | map => exact absurd hv id
  · rintro ⟨s, hv, hw⟩
    exact .scalar hv hw

theorem sameContent_list_iff {xs : List Value} : SameContent (.list label xs) w ↔
    ∃ label' ys, w = .list label' ys ∧ List.Forall₂ SameContent xs ys := by
  constructor
  · intro h
    cases h with
    | scalar hv => cases hv
    | list h => exact ⟨_, _, rfl, h⟩
  · rintro ⟨label', ys, rfl, h⟩
    exact .list h

theorem sameContent_pair_iff {a b : Value} : SameContent (.pair label a b) w ↔
    ∃ label' c d, w = .pair label' c d ∧ SameContent a c ∧ SameContent b d := by
  constructor
  · intro h
    cases h with
    | scalar hv => cases hv
    | pair ha hb => exact ⟨_, _, _, rfl, ha, hb⟩
  · rintro ⟨label', c, d, rfl, ha, hb⟩
    exact .pair ha hb

theorem sameContent_set_iff {xs : List Value} : SameContent (.set label xs) w ↔
    ∃ label' ys, w = .set label' ys ∧ Matched SameContent xs ys := by
  constructor
  · intro h
    cases h with
    | scalar hv => cases hv
    | set h hperm => exact ⟨_, _, rfl, _, h, hperm⟩
  · rintro ⟨label', ys, rfl, partners, h, hperm⟩
    exact .set h hperm

theorem forall₂_sameEntry_iff {xs ys : List (Value × Value)} : List.Forall₂ SameEntry xs ys ↔
    List.Forall₂ SameContent (xs.map (·.1)) (ys.map (·.1)) ∧
      List.Forall₂ SameContent (xs.map (·.2)) (ys.map (·.2)) := by
  induction xs generalizing ys with
  | nil => cases ys <;> simp
  | cons e xs ih =>
    cases ys with
    | nil => simp
    | cons f ys =>
      simp only [List.map_cons, List.forall₂_cons, ih, SameEntry]
      tauto

theorem sameContent_map_iff {xs : List (Value × Value)} : SameContent (.map label xs) w ↔
    ∃ label' ys, w = .map label' ys ∧ Matched SameEntry xs ys := by
  constructor
  · intro h
    cases h with
    | scalar hv => cases hv
    | map hkeys hvalues hperm =>
      exact ⟨_, _, rfl, _, forall₂_sameEntry_iff.mpr ⟨hkeys, hvalues⟩, hperm⟩
  · rintro ⟨label', ys, rfl, partners, h, hperm⟩
    obtain ⟨hkeys, hvalues⟩ := forall₂_sameEntry_iff.mp h
    exact .map hkeys hvalues hperm

/-- Where a collection stands inside itself nothing is said. -/
theorem not_sameContent_again {label : Label} : ¬ SameContent (.again label) w := by
  intro h
  cases h with
  | scalar hv => cases hv

end Shapes

/-! ## An equivalence of comparable values -/

/-- **Content that is the same one way is the same the other way.** -/
theorem SameContent.symm {v w : Value} (h : SameContent v w) : SameContent w v := by
  induction v using byParts generalizing w with
  | scalar v hv =>
    obtain ⟨s, hs, hs'⟩ := (sameContent_scalar_iff hv).mp h
    exact .scalar hs' hs
  | list label xs ih =>
    obtain ⟨label', ys, rfl, hitems⟩ := sameContent_list_iff.mp h
    exact .list (forall₂_imp_mem hitems fun x hx y hxy => ih x hx hxy).flip
  | pair label a b iha ihb =>
    obtain ⟨label', c, d, rfl, ha, hb⟩ := sameContent_pair_iff.mp h
    exact .pair (iha ha) (ihb hb)
  | set label xs ih =>
    obtain ⟨label', ys, rfl, helements⟩ := sameContent_set_iff.mp h
    exact sameContent_set_iff.mpr ⟨label, xs, rfl, helements.symm fun x hx y hxy => ih x hx hxy⟩
  | map label xs ih =>
    obtain ⟨label', ys, rfl, hentries⟩ := sameContent_map_iff.mp h
    exact sameContent_map_iff.mpr ⟨label, xs, rfl, hentries.symm fun e he f hef =>
      ⟨(ih e he).1 hef.1, (ih e he).2 hef.2⟩⟩
  | again label => exact absurd h not_sameContent_again

/-- **Two values with the content of a third one have the same content.** -/
theorem SameContent.trans {u v w : Value} (huv : SameContent u v) (hvw : SameContent v w) :
    SameContent u w := by
  induction u using byParts generalizing v w with
  | scalar u hu =>
    obtain ⟨s, hs, hv⟩ := (sameContent_scalar_iff hu).mp huv
    obtain ⟨s', hs', hw⟩ := (sameContent_scalar_iff (isScalar_of_scalar? hv)).mp hvw
    rw [hs'] at hv
    obtain rfl := Option.some.inj hv
    exact .scalar hs hw
  | list label xs ih =>
    obtain ⟨label', ys, rfl, hxy⟩ := sameContent_list_iff.mp huv
    obtain ⟨label'', zs, rfl, hyz⟩ := sameContent_list_iff.mp hvw
    exact .list (forall₂_trans_mem hxy hyz fun x hx y z => ih x hx)
  | pair label a b iha ihb =>
    obtain ⟨label', c, d, rfl, hac, hbd⟩ := sameContent_pair_iff.mp huv
    obtain ⟨label'', e, f, rfl, hce, hdf⟩ := sameContent_pair_iff.mp hvw
    exact .pair (iha hac hce) (ihb hbd hdf)
  | set label xs ih =>
    obtain ⟨label', ys, rfl, hxy⟩ := sameContent_set_iff.mp huv
    obtain ⟨label'', zs, rfl, hyz⟩ := sameContent_set_iff.mp hvw
    exact sameContent_set_iff.mpr ⟨label'', zs, rfl, hxy.trans hyz fun x hx y z => ih x hx⟩
  | map label xs ih =>
    obtain ⟨label', ys, rfl, hxy⟩ := sameContent_map_iff.mp huv
    obtain ⟨label'', zs, rfl, hyz⟩ := sameContent_map_iff.mp hvw
    exact sameContent_map_iff.mpr ⟨label'', zs, rfl, hxy.trans hyz fun e he f g hef hfg =>
      ⟨(ih e he).1 hef.1 hfg.1, (ih e he).2 hef.2 hfg.2⟩⟩
  | again label => exact absurd huv not_sameContent_again

/-- **A comparable value has its own content.** -/
theorem IsComparable.sameContent_self {v : Value} (h : v.IsComparable) : SameContent v v := by
  induction v using byParts with
  | scalar v hv =>
    obtain ⟨s, hs⟩ := exists_scalar? hv (h.numeric v .self)
    exact .scalar hs hs
  | list label xs ih =>
    exact .list (List.forall₂_same.mpr fun x hx => ih x hx (h.of_partOf (.item hx .self)))
  | pair label a b iha ihb =>
    exact .pair (iha (h.of_partOf (.first .self))) (ihb (h.of_partOf (.second .self)))
  | set label xs ih =>
    refine sameContent_set_iff.mpr ⟨label, xs, rfl, matched_of_perm (.refl xs) fun x hx => ?_⟩
    exact ih x hx (h.of_partOf (.element hx .self))
  | map label xs ih =>
    refine sameContent_map_iff.mpr ⟨label, xs, rfl, matched_of_perm (.refl xs) fun e he => ?_⟩
    exact ⟨(ih e he).1 (h.of_partOf (.key he .self)), (ih e he).2 (h.of_partOf (.member he .self))⟩
  | again label => exact absurd rfl (h.unrolled _ .self label)

end Value
end DevMachines
