import DevMachines.Number.Shortest

/-!
# How numbers are written and read

Doubles are written with the fewest digits that read back, positionally from `0.0001` up to below
`10 ^ 16` and with a signed exponent of at least two digits elsewhere; a whole number keeps `.0`, so
that it is never mistaken for an integer.  Integers have all their digits, up to a limit that both
directions share.  Reading accepts what a person would type: a sign, digits
with single underscores between them, an exponent, or the names of the infinities and of not a
number.
-/

namespace DevMachines

/-- The value of a decimal digit. -/
def digitValue? (c : Char) : Option Nat :=
  if '0' ≤ c ∧ c ≤ '9' then some (c.toNat - '0'.toNat) else none

/-- The value of a digit in any base up to sixteen. -/
def hexValue? (c : Char) : Option Nat :=
  if '0' ≤ c ∧ c ≤ '9' then some (c.toNat - '0'.toNat)
  else if 'a' ≤ c ∧ c ≤ 'f' then some (c.toNat - 'a'.toNat + 10)
  else if 'A' ≤ c ∧ c ≤ 'F' then some (c.toNat - 'A'.toNat + 10)
  else none

/-- The number that a nonempty list of digits of a base denotes. -/
def readDigits? (base : Nat) (cs : List Char) : Option Nat :=
  if cs.isEmpty then none
  else cs.foldl (fun acc c => do
    let n ← acc
    let d ← hexValue? c
    if d < base then pure (n * base + d) else none) (some 0)

/-- Removes underscores that stand singly between two digits; any other underscore is refused. -/
def dropSingleUnderscores? (cs : List Char) : Option (List Char) :=
  go none cs
where
  /-- The character before is remembered, because an underscore needs a digit on both sides. -/
  go : Option Char → List Char → Option (List Char)
    | _, [] => some []
    | prev, '_' :: rest =>
        match prev.bind digitValue?, rest.head?.bind digitValue? with
        | some _, some _ => go (some '_') rest
        | _, _ => none
    | _, c :: rest => (go (some c) rest).map (c :: ·)

namespace Binary64

/-- Writes the digits of a decimal around its point. -/
def layout (d : Decimal) : List Char :=
  let count : Int := d.digits.length
  if -4 < d.point ∧ d.point ≤ 16 then
    if d.point ≤ 0 then
      '0' :: '.' :: (List.replicate d.point.natAbs '0' ++ d.digits)
    else if count ≤ d.point then
      d.digits ++ List.replicate (d.point - count).toNat '0' ++ ['.', '0']
    else
      d.digits.take d.point.toNat ++ '.' :: d.digits.drop d.point.toNat
  else
    let exponent := d.point - 1
    let size := Nat.toDigits 10 exponent.natAbs
    let mantissa := match d.digits with
      | c :: c' :: rest => c :: '.' :: c' :: rest
      | cs => cs
    mantissa ++ 'e' :: (if exponent < 0 then '-' else '+') ::
      (if size.length < 2 then '0' :: size else size)

/-- The text of a double. -/
def toText : Binary64 → String
  | .nan => "nan"
  | .infinite negative => if negative then "-inf" else "inf"
  | .finite negative units =>
      let body := if units = 0 then ['0', '.', '0'] else layout (shortest units)
      String.ofList (if negative then '-' :: body else body)

/-- Removes a leading sign and says whether it was a minus. -/
def takeSign : List Char → Bool × List Char
  | '-' :: rest => (true, rest)
  | '+' :: rest => (false, rest)
  | cs => (false, cs)

/-- Reads the exponent part, which is empty or `e` with a signed number. -/
def readExponent? : List Char → Option Int
  | [] => some 0
  | c :: rest =>
      if c = 'e' ∨ c = 'E' then
        let (negative, digits) := takeSign rest
        (readDigits? 10 digits).map fun n => if negative then -(n : Int) else n
      else none

/-- Reads a decimal with an optional point and exponent; one digit at least must be there. -/
def readDecimal? (negative : Bool) (cs : List Char) : Option Binary64 := do
  let isDigit := fun c => (digitValue? c).isSome
  let whole := cs.takeWhile isDigit
  let afterWhole := cs.dropWhile isDigit
  let (fraction, tail) := match afterWhole with
    | '.' :: rest => (rest.takeWhile isDigit, rest.dropWhile isDigit)
    | rest => ([], rest)
  let digits ← readDigits? 10 (whole ++ fraction)
  let exponent ← readExponent? tail
  pure (ofDecimal negative digits (exponent - fraction.length))

/-- Reads the text of a double; the names of infinity and of not a number come in any case. -/
def ofText? (text : List Char) : Option Binary64 := do
  let cs ← dropSingleUnderscores? text
  let (negative, body) := takeSign cs
  let name := String.ofList (body.map Char.toLower)
  if name = "inf" ∨ name = "infinity" then pure (.infinite negative)
  else if name = "nan" then pure .nan
  else readDecimal? negative body

end Binary64

/-- The decimal text of an integer. -/
def intText (n : Int) : String :=
  let digits := Nat.toDigits 10 n.natAbs
  String.ofList (if n < 0 then '-' :: digits else digits)

/-- The most decimal digits that an integer is read or written with. -/
def digitLimit : Nat := 4300

/-- Has an integer more decimal digits than are written? -/
def isTooLong (n : Int) : Bool := digitLimit < (Nat.toDigits 10 n.natAbs).length

/-- The report of an integer that is too long to be written. -/
def tooLongReport : String :=
  s!"Exceeds the limit ({digitLimit} digits) for integer string conversion; " ++
    "use sys.set_int_max_str_digits() to increase the limit"

/-- Pads on the left with a character up to a width. -/
def padLeft (width : Nat) (fill : Char) (cs : List Char) : List Char :=
  List.replicate (width - cs.length) fill ++ cs

/-- The decimal text of a number, with leading zeros up to a width. -/
def zeroPadded (width n : Nat) : String :=
  String.ofList (padLeft width '0' (Nat.toDigits 10 n))

end DevMachines
