/-!
# Rounding a quotient

Every decimal and every double of this library is an exact fraction that has been rounded once.
This module holds that one rounding: `nearestEven num den` is the integer nearest to `num / den`,
and a tie goes to the even neighbour.  Keeping it in `Nat` is what lets its law be stated without
real numbers.
-/

namespace DevMachines

/-- The integer nearest to `num / den`; a tie goes to the even neighbour. -/
def nearestEven (num den : Nat) : Nat :=
  let floor := num / den
  let rest := num % den
  if 2 * rest < den then floor
  else if den < 2 * rest then floor + 1
  else if floor % 2 = 0 then floor else floor + 1

/-- A quotient without remainder is its own rounding. -/
@[simp] theorem nearestEven_mul (n den : Nat) (h : 0 < den) : nearestEven (n * den) den = n := by
  simp [nearestEven, Nat.mul_div_cancel _ h, h]

/-- Rounding moves down to the floor or up by one, and nowhere else. -/
theorem nearestEven_eq_or (num den : Nat) :
    nearestEven num den = num / den ∨ nearestEven num den = num / den + 1 := by
  simp only [nearestEven]
  split
  · exact .inl rfl
  · split
    · exact .inr rfl
    · split
      · exact .inl rfl
      · exact .inr rfl

end DevMachines
