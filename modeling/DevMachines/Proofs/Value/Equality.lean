import DevMachines.Proofs.Number.Shortest
import DevMachines.Proofs.Value.Content

/-!
# Equality of values is equality of content

`Value.eq` finds out whether two values have the same content (`eq_iff_sameContent`).  So on comparable
values it is an equivalence (`eq_self`, `eq_comm`, `eq_trans`).

## Where well-made values are needed

A set is compared by its size and by a partner for each of its elements.  That the elements are paired
off needs that no two elements of the first set are equal, and only of the first one.  Lists of
elements with one that is there twice would upset the comparison: `[1, 1]` would be equal to `[1, 2]`
but not the other way round.
-/

namespace DevMachines

open Binary64 (unitsPerOne signedUnits unitsPerOne_pos)

/-! ## Numbers -/

theorem natCast_eq_mul_iff {one : Nat} (hone : 0 < one) (units : Nat) (n : Int) :
    (units : Int) = n * one ↔ units % one = 0 ∧ ((units / one : Nat) : Int) = n := by
  constructor
  · intro h
    have hmod : (units : Int) % one = 0 := by rw [h, Int.mul_emod_left]
    have hdiv : (units : Int) / one = n := by rw [h, Int.mul_ediv_cancel _ (by omega)]
    exact ⟨by exact_mod_cast hmod, by exact_mod_cast hdiv⟩
  · rintro ⟨hmod, rfl⟩
    exact_mod_cast (Nat.div_mul_cancel (Nat.dvd_of_mod_eq_zero hmod)).symm

/-- A signed number of units is `n` whole ones if its magnitude is whole and the quotient is `n`. -/
theorem signedUnits_eq_mul_iff {one : Nat} (hone : 0 < one) (negative : Bool) (units : Nat) (n : Int) :
    signedUnits negative units = n * one ↔
      units % one = 0 ∧ signedUnits negative (units / one) = n := by
  cases negative with
  | true =>
    show -(units : Int) = n * one ↔ _ ∧ -((units / one : Nat) : Int) = n
    rw [neg_eq_iff_eq_neg, neg_eq_iff_eq_neg, ← Int.neg_mul, natCast_eq_mul_iff hone]
  | false => exact natCast_eq_mul_iff hone units n

/-- **A double is an integer exactly if it is that many whole ones.** -/
theorem Binary64.toInt?_eq_some_iff {x : Binary64} {n : Int} :
    x.toInt? = some n ↔ x.amount? = some (.units (n * unitsPerOne)) := by
  cases x with
  | nan | infinite => exact iff_of_false nofun nofun
  | finite negative units =>
    rw [amount?, Option.some.injEq, Amount.units.injEq, signedUnits_eq_mul_iff unitsPerOne_pos, toInt?]
    split
    · next hwhole => rw [Option.some.injEq, and_iff_right hwhole]
    · next hpart => simp only [reduceCtorEq, hpart, false_and]

theorem Binary64.numericEq_iff {x y : Binary64} :
    x.numericEq y = true ↔ ∃ a, x.amount? = some a ∧ y.amount? = some a := by
  cases x <;> cases y <;> simp [numericEq, amount?]
  all_goals exact eq_comm

/-- **Numbers are equal exactly if they are the same amount**, whatever their kinds. -/
theorem Number.eq_iff {n m : Number} :
    n.eq m = true ↔ ∃ a, n.amount? = some a ∧ m.amount? = some a := by
  have hexact : ∀ {a : Int} {x : Binary64}, (x.toInt? == some a) = true ↔
      ∃ b, (Number.exact a).amount? = some b ∧ x.amount? = some b := by
    intro a x
    rw [beq_iff_eq, Binary64.toInt?_eq_some_iff]
    exact ⟨fun h => ⟨_, rfl, h⟩, fun ⟨b, hb, hx⟩ => by rw [hx, ← hb, amount?]⟩
  cases n with
  | exact a =>
    cases m with
    | exact b =>
      have hone : (unitsPerOne : Int) ≠ 0 := Int.natCast_ne_zero.mpr unitsPerOne_pos.ne'
      rw [Number.eq, beq_iff_eq]
      constructor
      · rintro rfl
        exact ⟨_, rfl, rfl⟩
      · rintro ⟨c, hb, hc⟩
        rw [← hc, amount?, amount?, Option.some.injEq, Amount.units.injEq] at hb
        exact Int.eq_of_mul_eq_mul_right hone hb
    | double y => exact hexact
  | double x =>
    cases m with
    | exact b =>
      rw [Number.eq, hexact]
      exact exists_congr fun _ => and_comm
    | double y => exact Binary64.numericEq_iff

namespace Value

/-! ## Scalars -/

theorem scalar?_of_number? {v : Value} {n : Number} (h : v.number? = some n) :
    v.scalar? = n.amount?.map .number := by
  cases v with
  | bool | int | float =>
    obtain rfl := Option.some.inj h
    rfl
  | null | text | octets | date | moment | list | pair | set | map | again => cases h

/-- Only a number says an amount. -/
theorem exists_number?_of_scalar? {v : Value} {a : Amount} (h : v.scalar? = some (.number a)) :
    ∃ n, v.number? = some n ∧ n.amount? = some a := by
  have hnumber : ∀ {n : Number}, n.amount?.map Scalar.number = some (.number a) →
      n.amount? = some a := by
    intro n hn
    obtain ⟨b, hb, hab⟩ := Option.map_eq_some_iff.mp hn
    rw [hb, Scalar.number.inj hab]
  cases v with
  | bool | int | float => exact ⟨_, rfl, hnumber h⟩
  | null | text | octets | date | moment | list | pair | set | map | again => cases h

/-- A number is equal to nothing but numbers. -/
theorem eq_number_iff {v : Value} {n : Number} (h : v.number? = some n) (w : Value) :
    eq v w = true ↔ ∃ m, w.number? = some m ∧ n.eq m = true := by
  cases v with
  | bool | int | float =>
    obtain rfl := Option.some.inj h
    rw [eq]
    cases w.number? <;> simp
  | null | text | octets | date | moment | list | pair | set | map | again => cases h

theorem eq_number_iff_scalar? {v : Value} {n : Number} (h : v.number? = some n) (w : Value) :
    eq v w = true ↔ ∃ s, v.scalar? = some s ∧ w.scalar? = some s := by
  rw [eq_number_iff h, scalar?_of_number? h]
  constructor
  · rintro ⟨m, hm, heq⟩
    obtain ⟨a, ha, hb⟩ := Number.eq_iff.mp heq
    exact ⟨.number a, by rw [ha, Option.map_some], by rw [scalar?_of_number? hm, hb, Option.map_some]⟩
  · rintro ⟨s, hs, hw⟩
    obtain ⟨a, ha, rfl⟩ := Option.map_eq_some_iff.mp hs
    obtain ⟨m, hm, hb⟩ := exists_number?_of_scalar? hw
    exact ⟨m, hm, Number.eq_iff.mpr ⟨a, ha, hb⟩⟩

/-- **Scalars are equal exactly if they say the same.** -/
theorem eq_scalar_iff {v : Value} (hv : v.IsScalar) (w : Value) :
    eq v w = true ↔ ∃ s, v.scalar? = some s ∧ w.scalar? = some s := by
  cases v with
  | bool | int | float => exact eq_number_iff_scalar? rfl w
  | null | text | octets | date =>
    cases w <;> simp [eq, scalar?]
    all_goals exact eq_comm
  | moment label m =>
    cases w <;> simp [eq, scalar?, Moment.same]
    rw [and_assoc]
    exact and_congr eq_comm (and_congr eq_comm eq_comm)
  | list | pair | set | map | again => exact absurd hv id

/-! ## Collections -/

theorem eqItems_iff {xs ys : List Value} :
    eqItems xs ys = true ↔ List.Forall₂ (fun x y => eq x y = true) xs ys := by
  induction xs generalizing ys with
  | nil => cases ys <;> simp [eqItems]
  | cons x xs ih => cases ys <;> simp [eqItems, ih]

theorem allAmong_iff {xs ys : List Value} :
    allAmong xs ys = true ↔ ∀ x ∈ xs, ∃ y ∈ ys, eq x y = true := by
  induction xs with
  | nil => simp [allAmong]
  | cons x xs ih => simp [allAmong, ih]

theorem allEntriesAmong_iff {xs ys : List (Value × Value)} : allEntriesAmong xs ys = true ↔
    ∀ e ∈ xs, ∃ f ∈ ys, eq e.1 f.1 = true ∧ eq e.2 f.2 = true := by
  induction xs with
  | nil => simp [allEntriesAmong]
  | cons e xs ih =>
    rw [allEntriesAmong, Bool.and_eq_true, ih, List.forall_mem_cons, List.any_eq_true]
    simp only [Bool.and_eq_true]

section Shapes

variable {label : Option Label} {w : Value}

theorem eq_list_iff {xs : List Value} : eq (.list label xs) w = true ↔
    ∃ label' ys, w = .list label' ys ∧ List.Forall₂ (fun x y => eq x y = true) xs ys := by
  cases w <;> simp [eq, eqItems_iff]

theorem eq_pair_iff {a b : Value} : eq (.pair label a b) w = true ↔
    ∃ label' c d, w = .pair label' c d ∧ eq a c = true ∧ eq b d = true := by
  cases w <;> simp [eq, and_assoc]

theorem eq_set_iff {xs : List Value} : eq (.set label xs) w = true ↔
    ∃ label' ys, w = .set label' ys ∧ xs.length = ys.length ∧
      ∀ x ∈ xs, ∃ y ∈ ys, eq x y = true := by
  cases w <;> simp [eq, allAmong_iff]

theorem eq_map_iff {xs : List (Value × Value)} : eq (.map label xs) w = true ↔
    ∃ label' ys, w = .map label' ys ∧ xs.length = ys.length ∧
      ∀ e ∈ xs, ∃ f ∈ ys, eq e.1 f.1 = true ∧ eq e.2 f.2 = true := by
  cases w <;> simp [eq, allEntriesAmong_iff]

end Shapes

/-! ## Equality decides -/

/-- Keys that differ have no content in common, if equality decides about their content. -/
theorem AreKeys.haveNothingInCommon {keys : List Value} (h : AreKeys keys)
    (hdecides : ∀ k ∈ keys, ∀ w, eq k w = true ↔ SameContent k w) :
    keys.Pairwise fun k k' => ∀ w, SameContent k w → ¬ SameContent k' w := by
  refine h.differ.imp_of_mem fun {k k'} hk _ hdiffer w hw hw' => ?_
  have hsame : SameContent k k' := hw.trans hw'.symm
  rw [(hdecides k hk k').mpr hsame] at hdiffer
  exact Bool.false_ne_true hdiffer.symm

/-- Entries whose keys differ have no key in common with another entry. -/
theorem AreKeys.entriesHaveNothingInCommon {entries : List (Value × Value)}
    (h : AreKeys (entries.map (·.1)))
    (hdecides : ∀ e ∈ entries, ∀ w, eq e.1 w = true ↔ SameContent e.1 w) :
    entries.Pairwise fun e e' => ∀ f, SameEntry e f → ¬ SameEntry e' f := by
  have hkeys := h.haveNothingInCommon (List.forall_mem_map.mpr hdecides)
  rw [List.pairwise_map] at hkeys
  exact hkeys.imp fun hdiffer f hf hf' => hdiffer f.1 hf.1 hf'.1

/-- **Two values are equal exactly if they have the same content**, if the first one is well made and
holds no collection inside itself. -/
theorem eq_iff_sameContent {v : Value} (hmade : v.IsWellMade)
    (hunrolled : Everywhere (fun part => ∀ label, part ≠ .again label) v) (w : Value) :
    eq v w = true ↔ SameContent v w := by
  induction v using byParts generalizing w with
  | scalar v hv => rw [eq_scalar_iff hv, sameContent_scalar_iff hv]
  | list label xs ih =>
    rw [eq_list_iff, sameContent_list_iff]
    have hitems : ∀ x ∈ xs, ∀ y, eq x y = true ↔ SameContent x y := fun x hx =>
      ih x hx (hmade.of_partOf (.item hx .self)) (hunrolled.of_partOf (.item hx .self))
    refine exists_congr fun _ => exists_congr fun ys => and_congr_right fun _ => ?_
    exact ⟨fun h => forall₂_imp_mem h fun x hx y => (hitems x hx y).mp,
      fun h => forall₂_imp_mem h fun x hx y => (hitems x hx y).mpr⟩
  | pair label a b iha ihb =>
    rw [eq_pair_iff, sameContent_pair_iff]
    have ha := iha (hmade.of_partOf (.first .self)) (hunrolled.of_partOf (.first .self))
    have hb := ihb (hmade.of_partOf (.second .self)) (hunrolled.of_partOf (.second .self))
    simp only [ha, hb]
  | set label xs ih =>
    rw [eq_set_iff, sameContent_set_iff]
    have helements : ∀ x ∈ xs, ∀ y, eq x y = true ↔ SameContent x y := fun x hx =>
      ih x hx (hmade.of_partOf (.element hx .self)) (hunrolled.of_partOf (.element hx .self))
    refine exists_congr fun _ => exists_congr fun ys => and_congr_right fun _ => ?_
    rw [matched_iff_partners (AreKeys.haveNothingInCommon (hmade _ .self) helements)]
    refine and_congr_right fun _ => forall₂_congr fun x hx => ?_
    simp only [helements x hx]
  | map label xs ih =>
    rw [eq_map_iff, sameContent_map_iff]
    have hkeys : ∀ e ∈ xs, ∀ k, eq e.1 k = true ↔ SameContent e.1 k := fun e he =>
      (ih e he).1 (hmade.of_partOf (.key he .self)) (hunrolled.of_partOf (.key he .self))
    have hvalues : ∀ e ∈ xs, ∀ v, eq e.2 v = true ↔ SameContent e.2 v := fun e he =>
      (ih e he).2 (hmade.of_partOf (.member he .self)) (hunrolled.of_partOf (.member he .self))
    refine exists_congr fun _ => exists_congr fun ys => and_congr_right fun _ => ?_
    rw [matched_iff_partners (AreKeys.entriesHaveNothingInCommon (hmade _ .self) hkeys)]
    refine and_congr_right fun _ => forall₂_congr fun e he => ?_
    simp only [SameEntry, hkeys e he, hvalues e he]
  | again label => exact absurd rfl (hunrolled _ .self label)

/-- Equality to a key decides without more: what has the content of a key holds no sets and no maps. -/
theorem eq_iff_sameContent_of_isKey {v w : Value} (hw : w.isKey = true) :
    eq v w = true ↔ SameContent v w := by
  induction v using byParts generalizing w with
  | scalar v hv => rw [eq_scalar_iff hv, sameContent_scalar_iff hv]
  | pair label a b iha ihb =>
    rw [eq_pair_iff, sameContent_pair_iff]
    refine exists_congr fun _ => exists_congr fun c => exists_congr fun d => and_congr_right ?_
    rintro rfl
    rw [isKey, Bool.and_eq_true] at hw
    rw [iha hw.1, ihb hw.2]
  | list label xs =>
    rw [eq_list_iff, sameContent_list_iff]
    constructor <;> rintro ⟨_, _, rfl, _⟩ <;> exact absurd hw Bool.false_ne_true
  | set label xs =>
    rw [eq_set_iff, sameContent_set_iff]
    constructor <;> rintro ⟨_, _, rfl, _⟩ <;> exact absurd hw Bool.false_ne_true
  | map label xs =>
    rw [eq_map_iff, sameContent_map_iff]
    constructor <;> rintro ⟨_, _, rfl, _⟩ <;> exact absurd hw Bool.false_ne_true
  | again label =>
    refine iff_of_false (fun h => ?_) not_sameContent_again
    cases w with
    | again => exact absurd hw Bool.false_ne_true
    | _ => simp [eq] at h

theorem IsComparable.eq_iff {v : Value} (h : v.IsComparable) (w : Value) :
    eq v w = true ↔ SameContent v w :=
  eq_iff_sameContent h.wellMade h.unrolled w

/-! ## An equivalence -/

theorem IsComparable.eq_self {v : Value} (h : v.IsComparable) : eq v v = true :=
  (h.eq_iff v).mpr h.sameContent_self

theorem IsComparable.eq_comm {v w : Value} (hv : v.IsComparable) (hw : w.IsComparable) :
    eq v w = eq w v := by
  rw [Bool.eq_iff_iff, hv.eq_iff, hw.eq_iff]
  exact ⟨.symm, .symm⟩

theorem IsComparable.eq_trans {u v w : Value} (hu : u.IsComparable) (hv : v.IsComparable)
    (huv : eq u v = true) (hvw : eq v w = true) : eq u w = true :=
  (hu.eq_iff w).mpr (((hu.eq_iff v).mp huv).trans ((hv.eq_iff w).mp hvw))

end Value
end DevMachines
