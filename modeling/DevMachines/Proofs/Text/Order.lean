import Mathlib.Data.List.Sort

/-!
# The order of texts

Texts are compared by their code points, from the first on.  Sorting by a text puts things in an
order in which none comes before a smaller one; if the texts differ, that order is strict.
-/

namespace DevMachines
namespace Text

/-- The code points of a text. -/
def codePoints (text : String) : List Nat := text.toList.map Char.toNat

/-- Texts are ordered by their code points. -/
theorem lt_iff_codePoints_lt {a b : String} : a < b ↔ codePoints a < codePoints b := by
  rw [String.lt_iff, codePoints, codePoints]
  generalize a.toList = cs
  generalize b.toList = ds
  induction cs generalizing ds with
  | nil => cases ds <;> simp
  | cons c cs ih =>
    cases ds with
    | nil => simp
    | cons d ds =>
      rw [List.map_cons, List.map_cons, List.cons_lt_cons_iff, List.cons_lt_cons_iff, ih,
        Char.lt_def, UInt32.lt_iff_toNat_lt, Char.toNat_inj]
      exact Iff.rfl

variable {α : Type}

/-- Sorting by a text leaves nothing before what has a smaller one. -/
theorem pairwise_mergeSort_by (text : α → String) (xs : List α) :
    (xs.mergeSort fun x y => !(text y < text x)).Pairwise fun x y => text x ≤ text y := by
  have hsorted : (xs.mergeSort fun x y => !(text y < text x)).Pairwise
      fun x y => (!(text y < text x)) = true := by
    apply List.pairwise_mergeSort
    · intro x y z hxy hyz
      simp only [Bool.not_eq_true', decide_eq_false_iff_not, String.not_lt] at hxy hyz ⊢
      exact String.le_trans hxy hyz
    · intro x y
      simp only [Bool.or_eq_true, Bool.not_eq_true', decide_eq_false_iff_not, String.not_lt]
      exact String.le_total (text x) (text y)
  refine hsorted.imp fun {x y} h => ?_
  simpa only [Bool.not_eq_true', decide_eq_false_iff_not, String.not_lt] using h

theorem lt_of_le_of_ne {a b : String} (hle : a ≤ b) (hne : a ≠ b) : a < b := by
  by_contra hlt
  exact hne (String.le_antisymm hle (String.not_lt.mp hlt))

end Text
end DevMachines
