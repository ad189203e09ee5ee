import DevMachines.Number.Binary64

/-!
# The shortest decimal that reads back

A double has many decimals that round to it.  The one written is the shortest; among those of the
same length the nearest; and of two equally near ones the even.

For a length of `k` digits the candidates lie on the grid of multiples of one power of ten, and
only the two neighbours of the exact value can be the answer: any other grid point that reads back
leaves a neighbour between itself and the value, and that neighbour reads back too.  So the search
tries `k = 1, 2, …, 17` and asks the two neighbours each time, in exact arithmetic.
-/

namespace DevMachines

/-- A positive decimal `0.d₁d₂… * 10 ^ point`, with no trailing zero among its digits. -/
structure Decimal where
  digits : List Char
  point : Int
  deriving DecidableEq, Repr, Inhabited

namespace Decimal

/-- `digits * 10 ^ exponent` in normal form. -/
def ofScaled (digits : Nat) (exponent : Int) : Decimal :=
  let text := Nat.toDigits 10 digits
  { digits := (text.reverse.dropWhile (· == '0')).reverse
    point := text.length + exponent }

end Decimal

namespace Binary64

/-- Is the magnitude of `units` below `10 ^ exponent`? -/
def belowPower (units : Nat) (exponent : Int) : Bool :=
  if exponent < 0 then units * Nat.pow 10 exponent.natAbs < unitsPerOne
  else units < Nat.pow 10 exponent.toNat * unitsPerOne

/-- The first exponent at or above `start` whose power of ten exceeds the magnitude. -/
def firstAbove (units : Nat) (start : Int) : Nat → Int
  | 0 => start
  | fuel + 1 => if belowPower units start then start else firstAbove units (start + 1) fuel

/-- The exponent `e` with `10 ^ (e - 1) ≤ units < 10 ^ e`, for a positive magnitude.  The binary
length gives it to within a few units. -/
def decimalPoint (units : Nat) : Int :=
  firstAbove units ((((units.log2 : Int) - 1074) * 30103) / 100000 - 1) 8

/-- The multiple of `10 ^ exponent` just below the magnitude, and whether the magnitude is in the
lower half, the middle or the upper half of the step above it. -/
def gridFloor (units : Nat) (exponent : Int) : Nat × Ordering :=
  let (num, den) :=
    if exponent < 0 then (units * Nat.pow 10 exponent.natAbs, unitsPerOne)
    else (units, unitsPerOne * Nat.pow 10 exponent.toNat)
  (num / den, compare (2 * (num % den)) den)

/-- Does `digits * 10 ^ exponent` round to the magnitude of `units`? -/
def readsBack (units digits : Nat) (exponent : Int) : Bool :=
  ofDecimal false digits exponent == .finite false units

/-- The better neighbour on the grid of `10 ^ exponent` that reads back, if one does. -/
def gridHit (units : Nat) (exponent : Int) : Option Nat :=
  let (below, side) := gridFloor units exponent
  match readsBack units below exponent, readsBack units (below + 1) exponent with
  | true, true =>
      match side with
      | .lt => some below
      | .gt => some (below + 1)
      | .eq => if below % 2 = 0 then some below else some (below + 1)
  | true, false => some below
  | false, true => some (below + 1)
  | false, false => none

/-- Tries `length`, `length + 1`, … digits. -/
def searchLengths (units : Nat) (point : Int) (length : Nat) : Nat → Decimal
  | 0 => .ofScaled (gridFloor units (point - length)).1 (point - length)
  | fuel + 1 =>
      match gridHit units (point - length) with
      | some digits => .ofScaled digits (point - length)
      | none => searchLengths units point (length + 1) fuel

/-- The shortest decimal that reads back as a positive number of units. -/
def shortest (units : Nat) : Decimal := searchLengths units (decimalPoint units) 1 17

end Binary64
end DevMachines
