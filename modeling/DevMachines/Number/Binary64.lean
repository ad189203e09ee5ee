import DevMachines.Number.Rounding

/-!
# Doubles as exact multiples of the least one

A finite double is a whole number of *units* of `2 ^ -1074`, with a sign.  Writing it so makes the
type an ordinary one: two finite doubles are equal when sign and units are, they compare as natural
numbers do, and a sum or a product is an exact natural number that is rounded once.

The rounding is to 53 significant bits: among numbers of `b + 53` bits the representable ones are
the multiples of `2 ^ b`, so `roundUnits` divides by that gap, rounds, and multiplies back.

## What is here

* `Binary64` --- the type, with its two infinities and one value that is not a number;
* `Binary64.ofFraction`, `Binary64.ofDecimal` --- the double nearest to an exact number;
* `Binary64.add`, `Binary64.mul`, `Binary64.neg` --- arithmetic, each rounded once;
* `Binary64.toInt?` --- the integer that a double is, which decides when a double equals one;
* `Binary64.roundPlaces` --- rounding to a number of decimal places.
-/

namespace DevMachines

/-- A double: not a number, an infinity, or a signed number of units of `2 ^ -1074`. -/
inductive Binary64 where
  | nan
  | infinite (negative : Bool)
  | finite (negative : Bool) (units : Nat)
  deriving DecidableEq, Repr, Inhabited

namespace Binary64

/-- How many units make one. -/
def unitsPerOne : Nat := Nat.pow 2 1074

/-- The first number of units that is too large to be finite. -/
def overflow : Nat := Nat.pow 2 2098

/-- The distance between neighbouring doubles at a magnitude of `units`. -/
def gap (units : Nat) : Nat := Nat.pow 2 (units.log2 - 52)

/-- The whole number of units nearest to `num / den` that 53 significant bits can hold. -/
def roundUnits (num den : Nat) : Nat :=
  let g := gap (num / den)
  nearestEven num (den * g) * g

/-- The double with a sign and a number of units, infinite when there are too many. -/
def ofUnits (negative : Bool) (units : Nat) : Binary64 :=
  if units < overflow then .finite negative units else .infinite negative

/-- The double nearest to `num / den`. -/
def ofFraction (negative : Bool) (num den : Nat) : Binary64 :=
  ofUnits negative (roundUnits (num * unitsPerOne) den)

/-- The number of decimal digits of `n`; zero has one. -/
def decimalLength (n : Nat) : Nat := (Nat.toDigits 10 n).length

/-- The double nearest to `digits * 10 ^ exponent`.  Far outside the range of doubles the answer is
known without computing the power. -/
def ofDecimal (negative : Bool) (digits : Nat) (exponent : Int) : Binary64 :=
  let size : Int := decimalLength digits + exponent
  if digits = 0 then .finite negative 0
  else if size > 400 then .infinite negative
  else if size < -400 then .finite negative 0
  else if exponent < 0 then ofFraction negative digits (Nat.pow 10 exponent.natAbs)
  else ofFraction negative (digits * Nat.pow 10 exponent.toNat) 1

/-- Positive zero. -/
def zero : Binary64 := .finite false 0

/-- The double nearest to an integer, if it is not too large for one. -/
def ofInt? (n : Int) : Option Binary64 :=
  match ofFraction (n < 0) n.natAbs 1 with
  | .finite negative units => some (.finite negative units)
  | _ => none

/-- Is the sign bit set?  Not a number has none. -/
def isNegative : Binary64 → Bool
  | .nan => false
  | .infinite negative => negative
  | .finite negative _ => negative

/-- The opposite sign. -/
def neg : Binary64 → Binary64
  | .nan => .nan
  | .infinite negative => .infinite !negative
  | .finite negative units => .finite (!negative) units

/-- The signed number of units. -/
def signedUnits (negative : Bool) (units : Nat) : Int :=
  if negative then -(units : Int) else units

/-- The sum, rounded once.  Opposite numbers add up to positive zero. -/
def add : Binary64 → Binary64 → Binary64
  | .nan, _ => .nan
  | _, .nan => .nan
  | .infinite a, .infinite b => if a = b then .infinite a else .nan
  | .infinite a, _ => .infinite a
  | _, .infinite b => .infinite b
  | .finite a m, .finite b n =>
      let sum := signedUnits a m + signedUnits b n
      if sum = 0 then .finite (a && b) 0
      else ofUnits (sum < 0) (roundUnits sum.natAbs 1)

/-- The product, rounded once. -/
def mul : Binary64 → Binary64 → Binary64
  | .nan, _ => .nan
  | _, .nan => .nan
  | .infinite a, .infinite b => .infinite (a != b)
  | .infinite a, .finite b n => if n = 0 then .nan else .infinite (a != b)
  | .finite a m, .infinite b => if m = 0 then .nan else .infinite (a != b)
  | .finite a m, .finite b n => ofUnits (a != b) (roundUnits (m * n) unitsPerOne)

/-- The difference, rounded once. -/
def sub (x y : Binary64) : Binary64 := add x y.neg

/-- The integer that the double is, when it is one. -/
def toInt? : Binary64 → Option Int
  | .finite negative units =>
      if units % unitsPerOne = 0 then some (signedUnits negative (units / unitsPerOne)) else none
  | _ => none

/-- Equality of numbers: both zeros are one number, and not a number equals nothing. -/
def numericEq : Binary64 → Binary64 → Bool
  | .nan, _ => false
  | _, .nan => false
  | .infinite a, .infinite b => a == b
  | .finite a m, .finite b n => signedUnits a m == signedUnits b n
  | _, _ => false

/-- The number of hundredths, thousandths, … nearest to a magnitude, ties to even. -/
def scaledPlaces (units places : Nat) : Nat :=
  nearestEven (units * Nat.pow 10 places) unitsPerOne

/-- The double nearest to the number rounded to `places` decimal places. -/
def roundPlaces (places : Nat) : Binary64 → Binary64
  | .finite negative units =>
      ofFraction negative (scaledPlaces units places) (Nat.pow 10 places)
  | x => x

end Binary64
end DevMachines
