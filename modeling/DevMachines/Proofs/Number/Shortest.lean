import DevMachines.Number.Shortest
import DevMachines.Proofs.Number.Rounding
import Mathlib.Data.Nat.Factorization.Basic

/-!
# The shortest decimal reads back

The shortest decimal of a magnitude is that magnitude when it is read (`exists_shortest`).  The
search for it stops at the first length of which one of the two neighbours on the grid reads back, so
all that is to be shown is that it stops: seventeen digits are enough for every magnitude of a double
(`isSome_gridHit_seventeen`), since half a step of a grid of so many digits is less than the part of
`2 ^ -54` of the magnitude.

## Where the decimal point is

The search for it begins at a guess from the number of bits, and has eight steps.  That the guess is
never too large, and never too small by more than eight, is a fact about each number of bits that a
double can have, and is found by trying all of them (`all_guessFits`).
-/

namespace DevMachines

/-- Zeros behind the digits of a number are powers of ten. -/
theorem toDigits_mul_pow {m : Nat} (hm : 0 < m) (k : Nat) :
    Nat.toDigits 10 (m * 10 ^ k) = Nat.toDigits 10 m ++ List.replicate k '0' := by
  induction k with
  | zero => rw [Nat.pow_zero, Nat.mul_one, List.replicate_zero, List.append_nil]
  | succ k ih =>
    have hlarge : 10 ≤ m * 10 ^ k * 10 := by
      have := Nat.mul_pos hm (Nat.pow_pos (n := k) (by decide : 0 < 10))
      omega
    rw [Nat.pow_succ, ← Nat.mul_assoc, Nat.toDigits_of_base_le (by decide) hlarge,
      Nat.mul_div_cancel _ (by decide), ih, Nat.mul_mod_left, List.append_assoc,
      List.replicate_succ']
    rfl

/-- A decimal in normal form has the digits of a number without the zeros behind it. -/
theorem Decimal.exists_ofScaled {n : Nat} (h : 0 < n) (e : Int) :
    ∃ m k : Nat, 0 < m ∧ n = m * 10 ^ k ∧ Decimal.ofScaled n e =
      ⟨Nat.toDigits 10 m, (Nat.toDigits 10 m).length + (e + k)⟩ := by
  obtain ⟨k, m, hlast, rfl⟩ := Nat.exists_eq_pow_mul_and_not_dvd (Nat.ne_of_gt h) 10 (by decide)
  have hm : 0 < m := Nat.pos_of_ne_zero (by rintro rfl; exact hlast (dvd_zero 10))
  refine ⟨m, k, hm, Nat.mul_comm _ _, ?_⟩
  have hdigit : ((m % 10).digitChar == '0') = false := by
    have hten : m % 10 < 10 := Nat.mod_lt _ (by decide)
    have hzero : m % 10 ≠ 0 := fun hzero => hlast (Nat.dvd_of_mod_eq_zero hzero)
    revert hten hzero
    generalize m % 10 = d
    decide +revert
  have hend : ∃ front, Nat.toDigits 10 m = front ++ [(m % 10).digitChar] := by
    rcases Nat.lt_or_ge m 10 with hten | hten
    · exact ⟨[], by rw [Nat.toDigits_of_lt_base hten, Nat.mod_eq_of_lt hten, List.nil_append]⟩
    · exact ⟨_, Nat.toDigits_of_base_le (by decide) hten⟩
  obtain ⟨front, hfront⟩ := hend
  rw [Nat.mul_comm, Decimal.ofScaled, toDigits_mul_pow hm, List.length_append,
    List.length_replicate, List.reverse_append, List.reverse_replicate]
  rw [List.dropWhile_append_of_pos (by simp), hfront, List.reverse_append, List.reverse_singleton,
    List.singleton_append, List.dropWhile_cons_of_neg (by rw [hdigit]; exact Bool.false_ne_true),
    List.reverse_cons, List.reverse_reverse]
  congr 1
  omega

namespace Binary64

/-! ## Where the decimal point is -/

/-- Where the search for the decimal point begins for a magnitude of `k + 1` bits. -/
def firstGuess (k : Nat) : Int := (((k : Int) - 1074) * 30103) / 100000 - 1

/-- Does the search find the decimal point for all magnitudes of `k + 1` bits? -/
def guessFits (k : Nat) : Bool :=
  !belowPower (Nat.pow 2 k) (firstGuess k - 1) &&
    belowPower (Nat.pow 2 (k + 1)) (firstGuess k + 8) &&
    decide (-330 ≤ firstGuess k) && decide (firstGuess k ≤ 310)

/-- It does for each number of bits that a double has. -/
theorem all_guessFits : (List.range 2098).all guessFits = true := by decide +kernel

theorem belowPower_of_le {u v : Nat} {e : Int} (h : u ≤ v) (hv : belowPower v e = true) :
    belowPower u e = true := by
  rw [belowPower] at hv ⊢
  split at hv
  · next hnegative =>
    rw [if_pos hnegative]
    exact decide_eq_true (Nat.lt_of_le_of_lt (Nat.mul_le_mul_right _ h) (of_decide_eq_true hv))
  · next hpositive =>
    rw [if_neg hpositive]
    exact decide_eq_true (Nat.lt_of_le_of_lt h (of_decide_eq_true hv))

/-- The search stops at the first power of ten above a magnitude. -/
theorem firstAbove_spec {units : Nat} {start : Int} {fuel : Nat}
    (hbelow : belowPower units (start - 1) = false)
    (habove : belowPower units (start + fuel) = true) :
    belowPower units (firstAbove units start fuel - 1) = false ∧
      belowPower units (firstAbove units start fuel) = true ∧
      start ≤ firstAbove units start fuel ∧ firstAbove units start fuel ≤ start + fuel := by
  induction fuel generalizing start with
  | zero =>
    rw [Nat.cast_zero, Int.add_zero] at habove ⊢
    exact ⟨hbelow, habove, Int.le_refl _, Int.le_refl _⟩
  | succ fuel ih =>
    rw [firstAbove]
    cases hstart : belowPower units start with
    | true =>
      rw [if_pos rfl]
      exact ⟨hbelow, hstart, Int.le_refl _, by omega⟩
    | false =>
      rw [if_neg Bool.false_ne_true]
      have hbelow' : belowPower units (start + 1 - 1) = false := by rwa [Int.add_sub_cancel]
      have habove' : belowPower units (start + 1 + fuel) = true := by
        rwa [Int.add_assoc, Int.add_comm 1, ← Nat.cast_succ]
      obtain ⟨hfirst, hlast, hmin, hmax⟩ := ih hbelow' habove'
      exact ⟨hfirst, hlast, by omega, by omega⟩

/-- **The decimal point of a magnitude is behind its first power of ten.** -/
theorem decimalPoint_spec {units : Nat} (hpos : 0 < units) (hfinite : units < overflow) :
    belowPower units (decimalPoint units - 1) = false ∧
      belowPower units (decimalPoint units) = true ∧
      -330 ≤ decimalPoint units ∧ decimalPoint units ≤ 318 := by
  have hzero : units ≠ 0 := Nat.ne_of_gt hpos
  have hlog : ∀ k, units < Nat.pow 2 k → units.log2 < k := fun k hk => (Nat.log2_lt hzero).mpr hk
  unfold overflow at hfinite
  have hbits : units.log2 < 2098 := hlog 2098 hfinite
  have hfits := List.all_eq_true.mp all_guessFits _ (List.mem_range.mpr hbits)
  simp only [guessFits, Bool.and_eq_true, Bool.not_eq_true', decide_eq_true_eq] at hfits
  obtain ⟨⟨⟨hlow, hhigh⟩, hmin⟩, hmax⟩ := hfits
  have hbelow : belowPower units (firstGuess units.log2 - 1) = false := by
    by_contra hne
    rw [Bool.not_eq_false] at hne
    have hpower : Nat.pow 2 units.log2 ≤ units := Nat.log2_self_le hzero
    rw [belowPower_of_le hpower hne] at hlow
    cases hlow
  have habove : belowPower units (firstGuess units.log2 + (8 : Nat)) = true :=
    belowPower_of_le (Nat.le_of_lt Nat.lt_log2_self) hhigh
  obtain ⟨hfirst, hlast, hstart, hend⟩ := firstAbove_spec hbelow habove
  exact ⟨hfirst, hlast, Int.le_trans hmin hstart, by
    show firstAbove units (firstGuess units.log2) 8 ≤ 318
    omega⟩

/-! ## Decimals that read back -/

section Grid

variable {units : Nat}

/-- The numerator and denominator of a magnitude in steps of a power of ten. -/
def inSteps (units : Nat) (e : Int) : Nat × Nat :=
  if e < 0 then (units * Nat.pow 10 e.natAbs, unitsPerOne)
  else (units, unitsPerOne * Nat.pow 10 e.toNat)

theorem gridFloor_eq (units : Nat) (e : Int) : gridFloor units e =
    ((inSteps units e).1 / (inSteps units e).2,
      compare (2 * ((inSteps units e).1 % (inSteps units e).2)) (inSteps units e).2) := rfl

theorem unitsPerOne_pos : 0 < unitsPerOne := by
  have hpower : ∀ k, 0 < Nat.pow 2 k := Nat.two_pow_pos
  unfold unitsPerOne
  exact hpower 1074

theorem inSteps_pos (units : Nat) (e : Int) : 0 < (inSteps units e).2 := by
  have hone := unitsPerOne_pos
  rw [inSteps]
  generalize unitsPerOne = one at *
  split
  · exact hone
  · exact Nat.mul_pos hone (Nat.pow_pos (by decide))

/-- A number of steps that is nearest to a magnitude reads back, if there are enough of them. -/
theorem readsBack_of_near (hunits : IsMagnitude units) {n : Nat} {e : Int}
    (hmany : 10 ^ 16 * (inSteps units e).2 ≤ (inSteps units e).1)
    (habove : 2 * (inSteps units e).1 ≤ 2 * (n * (inSteps units e).2) + (inSteps units e).2)
    (hbelow : 2 * (n * (inSteps units e).2) ≤ 2 * (inSteps units e).1 + (inSteps units e).2)
    (hlength : decimalLength n ≤ 18) (hmin : -350 ≤ e) (hmax : e ≤ 310) :
    readsBack units n e = true := by
  have hsteps := inSteps_pos units e
  have hzero : n ≠ 0 := by
    rintro rfl
    rw [Nat.zero_mul] at habove
    omega
  have hlength' : 0 < decimalLength n := Nat.length_toDigits_pos
  have hfinite : ∀ rounded, rounded = units → ofUnits false rounded = .finite false units := by
    rintro _ rfl
    rw [ofUnits, if_pos hunits.finite]
  rw [readsBack, beq_iff_eq, ofDecimal, if_neg hzero, if_neg (by omega), if_neg (by omega)]
  rw [inSteps] at hsteps hmany habove hbelow
  split at hmany
  · next hnegative =>
    rw [if_pos hnegative] at hsteps habove hbelow ⊢
    dsimp only at hsteps hmany habove hbelow
    refine hfinite _ (roundUnits_of_near ?_ ?_ hunits.whole)
    · omega
    · omega
  · next hpositive =>
    rw [if_neg hpositive] at hsteps habove hbelow ⊢
    dsimp only at hsteps hmany habove hbelow
    have hscaled :
        n * Nat.pow 10 e.toNat * unitsPerOne = n * (unitsPerOne * Nat.pow 10 e.toNat) := by ring
    refine hfinite _ (roundUnits_of_near ?_ ?_ hunits.whole)
    · rw [hscaled, Nat.mul_one]
      omega
    · rw [hscaled, Nat.mul_one]
      omega

/-- A grid that has a hit has one that reads back. -/
theorem readsBack_of_gridHit {n : Nat} {e : Int} (h : gridHit units e = some n) :
    readsBack units n e = true := by
  rw [gridHit, gridFloor_eq] at h
  dsimp only at h
  split at h
  · next hfloor hnext =>
    split at h
    · exact Option.some.inj h ▸ hfloor
    · exact Option.some.inj h ▸ hnext
    · split at h
      · exact Option.some.inj h ▸ hfloor
      · exact Option.some.inj h ▸ hnext
  · next hfloor hnext => exact Option.some.inj h ▸ hfloor
  · next hfloor hnext => exact Option.some.inj h ▸ hnext
  · cases h

/-- A grid on which the number below a magnitude reads back, or the next one, has a hit. -/
theorem isSome_gridHit {e : Int}
    (h : readsBack units ((inSteps units e).1 / (inSteps units e).2) e = true ∨
      readsBack units ((inSteps units e).1 / (inSteps units e).2 + 1) e = true) :
    (gridHit units e).isSome = true := by
  rw [gridHit, gridFloor_eq]
  dsimp only
  split
  · split
    · rfl
    · rfl
    · split <;> rfl
  · rfl
  · rfl
  · next hfloor hnext =>
    rw [hfloor, hnext] at h
    rcases h with h | h <;> cases h

/-- A magnitude is below a power of ten if it has fewer steps than that power has. -/
theorem belowPower_add_iff {e : Int} {d : Nat} : belowPower units (e + d) = true ↔
    (inSteps units e).1 < 10 ^ d * (inSteps units e).2 := by
  have hten : ∀ k, 0 < 10 ^ k := fun k => Nat.pow_pos (by decide)
  rw [belowPower, inSteps]
  generalize unitsPerOne = one
  rcases Int.lt_or_le e 0 with he | he
  · rw [if_pos he]
    rcases Int.lt_or_le (e + d) 0 with hsum | hsum
    · have hsplit : e.natAbs = (e + d).natAbs + d := by omega
      have hscaled :
          units * Nat.pow 10 e.natAbs = 10 ^ d * (units * Nat.pow 10 (e + d).natAbs) := by
        rw [hsplit]
        show units * 10 ^ (_ + d) = 10 ^ d * (units * 10 ^ _)
        ring
      rw [if_pos hsum, hscaled, Nat.mul_lt_mul_left (hten d)]
      exact ⟨of_decide_eq_true, fun h => decide_eq_true h⟩
    · have hsplit : d = e.natAbs + (e + d).toNat := by omega
      have hscaled : 10 ^ d * one =
          Nat.pow 10 (e + d).toNat * one * Nat.pow 10 e.natAbs := by
        show _ = 10 ^ _ * one * 10 ^ _
        rw [hsplit, Nat.pow_add, ← hsplit]
        ring
      have hcancel : units * Nat.pow 10 e.natAbs <
          Nat.pow 10 (e + d).toNat * one * Nat.pow 10 e.natAbs ↔
            units < Nat.pow 10 (e + d).toNat * one := Nat.mul_lt_mul_right (hten e.natAbs)
      rw [if_neg (Int.not_lt.mpr hsum), hscaled]
      exact ⟨fun h => hcancel.mpr (of_decide_eq_true h), fun h => decide_eq_true (hcancel.mp h)⟩
  · have hsplit : (e + d).toNat = e.toNat + d := by omega
    have hscaled : Nat.pow 10 (e + d).toNat * one =
        10 ^ d * (one * Nat.pow 10 e.toNat) := by
      rw [hsplit]
      show 10 ^ (_ + d) * one = 10 ^ d * (one * 10 ^ _)
      ring
    rw [if_neg (Int.not_lt.mpr he), if_neg (by omega), hscaled]
    exact ⟨of_decide_eq_true, fun h => decide_eq_true h⟩

/-- **Seventeen digits are enough** for a decimal that reads back. -/
theorem isSome_gridHit_seventeen (hpos : 0 < units) (hunits : IsMagnitude units) :
    (gridHit units (decimalPoint units - 17)).isSome = true := by
  obtain ⟨hbelow, habove, hmin, hmax⟩ := decimalPoint_spec hpos hunits.finite
  generalize he : decimalPoint units - 17 = e
  rw [show decimalPoint units - 1 = e + (16 : Nat) by omega] at hbelow
  rw [show decimalPoint units = e + (17 : Nat) by omega] at habove
  have hfew := belowPower_add_iff.mp habove
  have hmany := Nat.le_of_not_lt fun h =>
    Bool.false_ne_true (hbelow.symm.trans (belowPower_add_iff.mpr h))
  have hsteps := inSteps_pos units e
  have hsplit := Nat.div_add_mod (inSteps units e).1 (inSteps units e).2
  have hrest := Nat.mod_lt (inSteps units e).1 hsteps
  have hfloor : (inSteps units e).1 / (inSteps units e).2 < 10 ^ 17 :=
    (Nat.div_lt_iff_lt_mul hsteps).mpr hfew
  refine isSome_gridHit ?_
  have hlength : ∀ n, n ≤ 10 ^ 17 → decimalLength n ≤ 18 := fun n hn =>
    (Nat.length_toDigits_le_iff (by decide) (by decide)).mpr (by omega)
  rw [Nat.mul_comm] at hsplit
  have hnext := Nat.add_one_mul ((inSteps units e).1 / (inSteps units e).2) (inSteps units e).2
  rcases Nat.le_total (2 * ((inSteps units e).1 % (inSteps units e).2)) (inSteps units e).2
    with hhalf | hhalf
  · refine Or.inl
      (readsBack_of_near hunits hmany ?_ ?_ (hlength _ (by omega)) (by omega) (by omega))
    · omega
    · omega
  · refine Or.inr
      (readsBack_of_near hunits hmany ?_ ?_ (hlength _ (by omega)) (by omega) (by omega))
    · omega
    · omega

/-- The search comes to a decimal that reads back, if the last grid has a hit. -/
theorem exists_searchLengths {point : Int} {length fuel : Nat}
    (h : (gridHit units (point - (length + fuel : Nat))).isSome = true) :
    ∃ n e, searchLengths units point length (fuel + 1) = .ofScaled n e ∧
      readsBack units n e = true := by
  induction fuel generalizing length with
  | zero =>
    obtain ⟨n, hn⟩ := Option.isSome_iff_exists.mp h
    rw [Nat.add_zero] at hn
    refine ⟨n, _, ?_, readsBack_of_gridHit hn⟩
    rw [searchLengths, hn]
  | succ fuel ih =>
    rw [searchLengths]
    cases hhit : gridHit units (point - length) with
    | some n => exact ⟨n, _, rfl, readsBack_of_gridHit hhit⟩
    | none => exact ih (by rwa [Nat.add_right_comm, Nat.add_assoc])

/-- **The shortest decimal of a magnitude reads back**, and has the digits of a number. -/
theorem exists_shortest (hpos : 0 < units) (hunits : IsMagnitude units) :
    ∃ m q, 0 < m ∧ shortest units = ⟨Nat.toDigits 10 m, (Nat.toDigits 10 m).length + q⟩ ∧
      ofDecimal false m q = .finite false units := by
  have hlast : (gridHit units (decimalPoint units - (1 + 16 : Nat))).isSome = true :=
    isSome_gridHit_seventeen hpos hunits
  obtain ⟨n, e, hsearch, hback⟩ := exists_searchLengths hlast
  have hread : ofDecimal false n e = .finite false units := eq_of_beq hback
  have hn : 0 < n := by
    refine Nat.pos_of_ne_zero ?_
    rintro rfl
    rw [ofDecimal, if_pos rfl] at hread
    cases hread
    cases hpos
  obtain ⟨m, k, hm, rfl, hscaled⟩ := Decimal.exists_ofScaled hn e
  exact ⟨m, e + k, hm, hsearch.trans hscaled, (ofDecimal_mul_pow false m k e).symm.trans hread⟩

end Grid

end Binary64
end DevMachines
