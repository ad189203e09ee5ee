import DevMachines.Number.Binary64
import Mathlib.Algebra.Order.Ring.Nat
import Mathlib.Tactic.Ring

/-!
# What is rounded to a double

A fraction that is near enough to the magnitude of a double is rounded to it
(`roundUnits_of_near`).  It need only be nearer than the part of that magnitude which is `2 ^ -54`:
doubles are as far apart as the gap between them, and each is less than `2 ^ 53` gaps.  In turn what
anything is rounded to is such a magnitude (`isMagnitude_roundUnits`).

A zero more at the end of a decimal and one less in its exponent leave the double that it is
(`ofDecimal_mul_pow`).

## Why the least magnitude of a gap is a case of its own

Just below `2 ^ 52` gaps the gap is half as wide.  A fraction there is rounded in half steps, and
the magnitude is an even number of these.
-/

namespace DevMachines

/-! ## Rounding to a whole number -/

/-- A fraction that is nearer than a half to a whole number is rounded to it. -/
theorem nearestEven_of_near {num den n : Nat} (habove : 2 * num < 2 * (n * den) + den)
    (hbelow : 2 * (n * den) < 2 * num + den) : nearestEven num den = n := by
  have hden : 0 < den := by omega
  rcases Nat.lt_or_ge num (n * den) with hless | hmore
  · -- the whole number below is one less
    obtain ⟨m, rfl⟩ := Nat.exists_eq_add_one_of_ne_zero (n := n) (by rintro rfl; omega)
    have hsplit : (m + 1) * den = m * den + den := Nat.succ_mul m den
    have hfloor : num / den = m := by
      refine Nat.div_eq_of_lt_le ?_ ?_
      · omega
      · rw [hsplit]; omega
    have hrest : num % den = num - m * den := by
      have := Nat.div_add_mod num den
      rw [hfloor, Nat.mul_comm] at this
      omega
    rw [nearestEven, hfloor, hrest]
    rw [if_neg (by omega), if_pos (by omega)]
  · have hsplit : (n + 1) * den = n * den + den := Nat.succ_mul n den
    have hfloor : num / den = n := by
      refine Nat.div_eq_of_lt_le hmore ?_
      rw [hsplit]; omega
    have hrest : num % den = num - n * den := by
      have := Nat.div_add_mod num den
      rw [hfloor, Nat.mul_comm] at this
      omega
    rw [nearestEven, hfloor, hrest]
    rw [if_pos (by omega)]

/-- Numerator and denominator may have a common factor. -/
theorem nearestEven_mul_right (num den : Nat) {k : Nat} (hk : 0 < k) :
    nearestEven (num * k) (den * k) = nearestEven num den := by
  have hscale : ∀ a b : Nat, a * k < b * k ↔ a < b := fun a b => Nat.mul_lt_mul_right hk
  rw [nearestEven, nearestEven, Nat.mul_div_mul_right _ _ hk, Nat.mul_mod_mul_right]
  simp only [← Nat.mul_assoc, hscale]

namespace Binary64

/-! ## Rounding to a double -/

/-- Numerator and denominator may have a common factor. -/
theorem roundUnits_mul_right (num den : Nat) {k : Nat} (hk : 0 < k) :
    roundUnits (num * k) (den * k) = roundUnits num den := by
  rw [roundUnits, roundUnits, Nat.mul_div_mul_right _ _ hk]
  rw [Nat.mul_right_comm, nearestEven_mul_right _ _ hk]

/-- Is a magnitude one of those that a double can have? -/
structure IsMagnitude (units : Nat) : Prop where
  finite : units < overflow
  whole : gap units ∣ units

theorem gap_eq (units : Nat) : gap units = 2 ^ (units.log2 - 52) := rfl

theorem log2_eq_of_bounds {n k : Nat} (hlow : 2 ^ k ≤ n) (hhigh : n < 2 ^ (k + 1)) : n.log2 = k :=
  (Nat.log2_eq_iff (Nat.ne_of_gt (Nat.lt_of_lt_of_le (Nat.two_pow_pos k) hlow))).mpr ⟨hlow, hhigh⟩

/-- The gap at a fraction, from its number of bits before the point. -/
theorem gap_of_bounds {num den k : Nat} (hden : 0 < den) (hlow : 2 ^ k * den ≤ num)
    (hhigh : num < 2 ^ (k + 1) * den) : gap (num / den) = 2 ^ (k - 52) := by
  have hlog : (num / den).log2 = k := log2_eq_of_bounds ((Nat.le_div_iff_mul_le hden).mpr hlow)
    ((Nat.div_lt_iff_lt_mul hden).mpr hhigh)
  rw [gap_eq, hlog]

theorem gap_eq_one {n : Nat} (h : n < 2 ^ 53) : gap n = 1 := by
  have hlog : n.log2 < 53 := by
    rcases Nat.eq_zero_or_pos n with rfl | hpos
    · decide
    · exact (Nat.log2_lt (Nat.ne_of_gt hpos)).mpr h
  rw [gap_eq, Nat.sub_eq_zero_of_le (Nat.le_of_lt_succ hlog), Nat.pow_zero]

section Near

variable {num den units : Nat} (habove : 2 ^ 54 * num < 2 ^ 54 * (units * den) + units * den)
  (hbelow : 2 ^ 54 * (units * den) < 2 ^ 54 * num + units * den)

include habove hbelow

/-- A magnitude of at most 53 bits above the gap is what a fraction near it is rounded to. -/
theorem roundUnits_eq_of_gap {g : Nat} (hgap : gap (num / den) = g) (hwhole : g ∣ units)
    (hbits : units ≤ 2 ^ 53 * g) : roundUnits num den = units := by
  obtain ⟨n, rfl⟩ := hwhole
  have hbits' : g * n * den ≤ 2 ^ 53 * (den * g) := by
    rw [Nat.mul_comm den g, ← Nat.mul_assoc]
    exact Nat.mul_le_mul_right den hbits
  have hsame : n * (den * g) = g * n * den := by ring
  rw [roundUnits, hgap]
  rw [nearestEven_of_near (n := n) (by rw [hsame]; omega) (by rw [hsame]; omega), Nat.mul_comm]

/-- A fraction near a magnitude of at most 53 bits is rounded in whole units. -/
theorem roundUnits_of_near_small (hsmall : units < 2 ^ 53) : roundUnits num den = units := by
  have hfew : units * den + den ≤ 2 ^ 53 * den := by
    rw [← Nat.succ_mul]
    exact Nat.mul_le_mul_right den hsmall
  have hfloor : num / den < 2 ^ 53 := Nat.div_lt_of_lt_mul (by rw [Nat.mul_comm]; omega)
  exact roundUnits_eq_of_gap habove hbelow (gap_eq_one hfloor) (one_dvd _) (by omega)

/-- A fraction near a magnitude of more bits is rounded in its gap, or, just below the least such
magnitude, in half of it. -/
theorem roundUnits_of_near_large {b m : Nat} (hunits : units = 2 ^ (b + 1) * m) (hlow : 2 ^ 52 ≤ m)
    (hhigh : m < 2 ^ 53) : roundUnits num den = units := by
  have hden : 0 < den := Nat.pos_of_ne_zero fun hzero => by subst hzero; omega
  -- all magnitudes as multiples of the gap, weighed with the denominator
  obtain ⟨step, hstep⟩ : ∃ step, step = 2 ^ (b + 1) * den := ⟨_, rfl⟩
  have hscaled : units * den = m * step := by
    rw [hunits, hstep]
    ring
  have hlower : 2 ^ 52 * step ≤ m * step := Nat.mul_le_mul_right step hlow
  have hupper : m * step + step ≤ 2 ^ 53 * step := by
    rw [← Nat.succ_mul]
    exact Nat.mul_le_mul_right step hhigh
  have hpower : ∀ k, 2 ^ (k + (b + 1)) * den = 2 ^ k * step := by
    intro k
    rw [hstep, Nat.pow_add, Nat.mul_assoc]
  have hpower' : ∀ k, 2 ^ (k + (b + 1) + 1) * den = 2 ^ (k + 1) * step := by
    intro k
    rw [Nat.add_right_comm, hpower]
  rcases Nat.lt_or_ge num (2 ^ 52 * step) with hless | hmore
  · have hleast : m = 2 ^ 52 := by
      by_contra hne
      have hmore : (2 ^ 52 + 1) * step ≤ m * step := Nat.mul_le_mul_right step (by omega)
      omega
    have hgap : gap (num / den) = 2 ^ (51 + (b + 1) - 52) :=
      gap_of_bounds hden (by rw [hpower]; omega) (by rw [hpower']; exact hless)
    rw [show 51 + (b + 1) - 52 = b by omega] at hgap
    refine roundUnits_eq_of_gap habove hbelow hgap ?_ ?_
    · rw [hunits]
      exact Dvd.dvd.mul_right (pow_dvd_pow 2 (Nat.le_succ b)) m
    · rw [hunits, hleast, Nat.pow_succ]
      omega
  · have hgap : gap (num / den) = 2 ^ (52 + (b + 1) - 52) :=
      gap_of_bounds hden (by rw [hpower]; exact hmore) (by rw [hpower']; omega)
    rw [Nat.add_sub_cancel_left] at hgap
    refine roundUnits_eq_of_gap habove hbelow hgap (Dvd.intro m hunits.symm) ?_
    rw [hunits, Nat.mul_comm]
    exact Nat.mul_le_mul_right _ (Nat.le_of_lt hhigh)

/-- **A fraction near a magnitude is rounded to it**: one that is nearer than its part of
`2 ^ -54`. -/
theorem roundUnits_of_near (hunits : gap units ∣ units) : roundUnits num den = units := by
  rcases Nat.lt_or_ge units (2 ^ 53) with hsmall | hlarge
  · exact roundUnits_of_near_small habove hbelow hsmall
  · have hzero : units ≠ 0 := by omega
    obtain ⟨b, hb⟩ : ∃ b, units.log2 = 53 + b :=
      Nat.exists_eq_add_of_le ((Nat.le_log2 hzero).mpr hlarge)
    obtain ⟨m, hm⟩ := hunits
    rw [gap_eq, hb, show 53 + b - 52 = b + 1 by omega] at hm
    have hlow : 2 ^ (b + 1) * 2 ^ 52 ≤ 2 ^ (b + 1) * m := by
      rw [← hm, ← Nat.pow_add, show b + 1 + 52 = units.log2 by omega]
      exact Nat.log2_self_le hzero
    have hhigh : 2 ^ (b + 1) * m < 2 ^ (b + 1) * 2 ^ 53 := by
      rw [← hm, ← Nat.pow_add, show b + 1 + 53 = units.log2 + 1 by omega]
      exact Nat.lt_log2_self
    exact roundUnits_of_near_large habove hbelow hm
      (Nat.le_of_mul_le_mul_left hlow (Nat.two_pow_pos _)) (Nat.lt_of_mul_lt_mul_left hhigh)

end Near

/-- **What a fraction is rounded to is the magnitude of a double**, if it is not too large. -/
theorem isMagnitude_roundUnits {num den : Nat} (h : roundUnits num den < overflow) :
    IsMagnitude (roundUnits num den) := by
  refine ⟨h, ?_⟩
  obtain ⟨b, hb, hlog⟩ : ∃ b, gap (num / den) = 2 ^ b ∧ (num / den).log2 ≤ 52 + b :=
    ⟨_, rfl, by omega⟩
  have hfloor : num / (den * 2 ^ b) < 2 ^ 53 := by
    rw [← Nat.div_div_eq_div_mul, Nat.div_lt_iff_lt_mul (Nat.two_pow_pos b), ← Nat.pow_add]
    exact Nat.lt_of_lt_of_le Nat.lt_log2_self (Nat.pow_le_pow_right (by decide) (by omega))
  have hbits : nearestEven num (den * 2 ^ b) ≤ 2 ^ 53 := by
    rcases nearestEven_eq_or num (den * 2 ^ b) with h | h <;> omega
  rw [roundUnits, hb, gap_eq]
  generalize nearestEven num (den * 2 ^ b) = n at hbits
  rcases Nat.lt_or_eq_of_le hbits with hless | rfl
  · -- no more bits than the gap leaves room for
    refine Dvd.dvd.mul_left (pow_dvd_pow 2 ?_) n
    rcases Nat.eq_zero_or_pos (n * 2 ^ b) with hzero | hpos
    · rw [hzero, Nat.log2_zero]
      exact Nat.zero_le _
    · have : (n * 2 ^ b).log2 < 53 + b := by
        rw [Nat.log2_lt (Nat.ne_of_gt hpos), Nat.pow_add]
        exact Nat.mul_lt_mul_of_pos_right hless (Nat.two_pow_pos b)
      omega
  · rw [← Nat.pow_add, Nat.log2_two_pow]
    exact pow_dvd_pow 2 (by omega)

/-! ## Results that are doubles -/

/-- Is this a value that a double can have? -/
def IsDouble (x : Binary64) : Prop :=
  ∀ negative units, x = .finite negative units → IsMagnitude units

/-- Is a double a number, and not too large to be one? -/
def IsFinite (x : Binary64) : Prop := ∃ negative units, x = .finite negative units

theorem isMagnitude_zero : IsMagnitude 0 where
  finite := by
    have hpower : ∀ k, 0 < Nat.pow 2 k := Nat.two_pow_pos
    unfold overflow
    exact hpower 2098
  whole := dvd_zero _

theorem isDouble_zero (negative : Bool) : IsDouble (.finite negative 0) := by
  intro _ _ h
  cases h
  exact isMagnitude_zero

theorem isDouble_infinite (negative : Bool) : IsDouble (.infinite negative) := by
  intro _ _ h
  cases h

theorem isDouble_nan : IsDouble .nan := by
  intro _ _ h
  cases h

theorem isDouble_ofUnits (negative : Bool) (num den : Nat) :
    IsDouble (ofUnits negative (roundUnits num den)) := by
  intro _ _ h
  rw [ofUnits] at h
  split at h
  · next hfinite =>
    cases h
    exact isMagnitude_roundUnits hfinite
  · cases h

theorem isDouble_ofDecimal (negative : Bool) (digits : Nat) (e : Int) :
    IsDouble (ofDecimal negative digits e) := by
  rw [ofDecimal]
  split_ifs
  · exact isDouble_zero negative
  · exact isDouble_infinite negative
  · exact isDouble_zero negative
  · exact isDouble_ofUnits negative _ _
  · exact isDouble_ofUnits negative _ _

/-! ## Decimals -/

theorem decimalLength_mul_ten {n : Nat} (h : 0 < n) :
    decimalLength (n * 10) = decimalLength n + 1 := by
  rw [decimalLength, decimalLength, Nat.toDigits_of_base_le (by decide) (by omega),
    Nat.mul_div_cancel _ (by decide), List.length_append, List.length_singleton]

/-- Numerator and denominator may have a common factor. -/
theorem ofFraction_mul_right (negative : Bool) (num den : Nat) {k : Nat} (hk : 0 < k) :
    ofFraction negative (num * k) (den * k) = ofFraction negative num den := by
  rw [ofFraction, ofFraction, Nat.mul_right_comm, roundUnits_mul_right _ _ hk]

/-- A zero behind the digits is a part of the exponent. -/
theorem ofDecimal_mul_ten (negative : Bool) (digits : Nat) (e : Int) :
    ofDecimal negative (digits * 10) (e - 1) = ofDecimal negative digits e := by
  rcases Nat.eq_zero_or_pos digits with rfl | hpos
  · rw [Nat.zero_mul, ofDecimal, ofDecimal, if_pos rfl, if_pos rfl]
  · have hsize :
        ((decimalLength (digits * 10) : Nat) : Int) + (e - 1) = decimalLength digits + e := by
      rw [decimalLength_mul_ten hpos]
      omega
    have hten : ∀ k, Nat.pow 10 (k + 1) = Nat.pow 10 k * 10 := fun _ => rfl
    rw [ofDecimal, ofDecimal, hsize]
    rw [if_neg (by omega), if_neg (Nat.ne_of_gt hpos)]
    refine ite_congr rfl (fun _ => rfl) fun _ => ite_congr rfl (fun _ => rfl) fun _ => ?_
    rcases Int.lt_trichotomy e 0 with he | rfl | he
    · have hsplit : (e - 1).natAbs = e.natAbs + 1 := by omega
      rw [if_pos (by omega), if_pos he, hsplit, hten, ofFraction_mul_right _ _ _ (by decide)]
    · have hbelow : Nat.pow 10 (0 - 1 : Int).natAbs = 1 * 10 := rfl
      have habove : Nat.pow 10 (0 : Int).toNat = 1 := rfl
      rw [if_pos (by decide), if_neg (by decide), hbelow, habove, Nat.mul_one,
        ofFraction_mul_right _ _ _ (by decide)]
    · have hsplit : e.toNat = (e - 1).toNat + 1 := by omega
      rw [if_neg (by omega), if_neg (by omega), hsplit, hten, Nat.mul_assoc, Nat.mul_comm 10]

/-- Zeros behind the digits are a part of the exponent. -/
theorem ofDecimal_mul_pow (negative : Bool) (digits k : Nat) (e : Int) :
    ofDecimal negative (digits * 10 ^ k) e = ofDecimal negative digits (e + k) := by
  induction k generalizing e with
  | zero => rw [Nat.pow_zero, Nat.mul_one, Nat.cast_zero, Int.add_zero]
  | succ k ih =>
    have hlast := ofDecimal_mul_ten negative (digits * 10 ^ k) (e + 1)
    rw [Int.add_sub_cancel] at hlast
    rw [Nat.pow_succ, ← Nat.mul_assoc, hlast, ih, Nat.cast_succ, Int.add_assoc, Int.add_comm 1]

/-- The sign is that of the decimal. -/
theorem ofDecimal_of_finite {digits units : Nat} {e : Int}
    (h : ofDecimal false digits e = .finite false units) (negative : Bool) :
    ofDecimal negative digits e = .finite negative units := by
  have hunits : ∀ {n : Nat}, ofUnits false n = .finite false units →
      ofUnits negative n = .finite negative units := by
    intro n hn
    rw [ofUnits] at hn ⊢
    split at hn
    · next hfinite =>
      rw [if_pos hfinite]
      cases hn
      rfl
    · cases hn
  rw [ofDecimal] at h ⊢
  split_ifs at h ⊢
  · cases h
    rfl
  · cases h
    rfl
  · exact hunits h
  · exact hunits h

end Binary64
end DevMachines
