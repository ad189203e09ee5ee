import DevMachines.Number.Notation

/-!
# Tags, and the tags that plain scalars imply

A tag says what kind of value a node is.  A plain scalar carries no tag, so its text decides: what
reads as a truth value, a number, a day or null is one, and everything else is a text.  A quoted
scalar is always a text.

The rules are grammars over characters.  Each is a small predicate here, and `impliedTag` asks them
in a fixed order.  A single line feed at the end of the text is not looked at.
-/

namespace DevMachines.Yaml

namespace Tag

/-- The namespace of the standard tags. -/
def standard (name : String) : String := "tag:yaml.org,2002:" ++ name

def null : String := standard "null"
def bool : String := standard "bool"
def int : String := standard "int"
def float : String := standard "float"
def text : String := standard "str"
def binary : String := standard "binary"
def timestamp : String := standard "timestamp"
def sequence : String := standard "seq"
def mapping : String := standard "map"
def set : String := standard "set"
def orderedMap : String := standard "omap"
def pairs : String := standard "pairs"
def merge : String := standard "merge"
def value : String := standard "value"
def indicator : String := standard "yaml"
def pair : String := standard "python/tuple"

end Tag

/-! ## The grammars -/

/-- A decimal digit. -/
def isDigit (c : Char) : Bool := '0' ≤ c && c ≤ '9'

/-- A decimal digit or an underscore. -/
def isDigitOrUnderscore (c : Char) : Bool := isDigit c || c == '_'

/-- The words for truth values, each in lower case, in capitals, or with a capital. -/
def boolWords : List String :=
  ["yes", "Yes", "YES", "no", "No", "NO", "true", "True", "TRUE", "false", "False", "FALSE",
    "on", "On", "ON", "off", "Off", "OFF"]

/-- The words for null. -/
def nullWords : List String := ["~", "null", "Null", "NULL", ""]

/-- Sixties: a colon and a number below sixty, once or more, to the end. -/
def areSixties : List Char → Bool
  | ':' :: a :: b :: rest =>
      if isDigit b then '0' ≤ a && a ≤ '5' && (rest.isEmpty || areSixties rest)
      else isDigit a && areSixties (b :: rest)
  | [':', a] => isDigit a
  | _ => false

/-- Digits with underscores, the first of them not zero, with an optional tail of sixties. -/
def isDecimalOrSixties (cs : List Char) : Bool :=
  match cs with
  | c :: rest =>
      '1' ≤ c && c ≤ '9' &&
        (let tail := rest.dropWhile isDigitOrUnderscore
         tail.isEmpty || areSixties tail)
  | [] => false

/-- At least one character, all of a class. -/
def isRun (p : Char → Bool) (cs : List Char) : Bool := !cs.isEmpty && cs.all p

/-- An integer without its sign: binary, octal, hexadecimal, decimal or in sixties. -/
def isUnsignedInt : List Char → Bool
  | ['0'] => true
  | '0' :: 'b' :: rest => isRun (fun c => c == '0' || c == '1' || c == '_') rest
  | '0' :: 'x' :: rest => isRun (fun c => (hexValue? c).isSome || c == '_') rest
  | '0' :: rest => isRun (fun c => ('0' ≤ c && c ≤ '7') || c == '_') rest
  | cs => isDecimalOrSixties cs

/-- An integer. -/
def isInt (cs : List Char) : Bool := isUnsignedInt (Binary64.takeSign cs).2

/-- An exponent with its sign, or nothing. -/
def isOptionalExponent : List Char → Bool
  | [] => true
  | e :: sign :: rest =>
      (e == 'e' || e == 'E') && (sign == '+' || sign == '-') && isRun isDigit rest
  | _ => false

/-- A double that starts with a digit: with an exponent after the point, or in sixties before it. -/
def isPointed (cs : List Char) : Bool :=
  match cs with
  | c :: rest =>
      isDigit c &&
        (match rest.dropWhile isDigitOrUnderscore with
         | '.' :: tail => isOptionalExponent (tail.dropWhile isDigitOrUnderscore)
         | tail =>
             let sixties := tail.takeWhile (· != '.')
             areSixties sixties &&
               (match tail.drop sixties.length with
                | '.' :: fraction => fraction.all isDigitOrUnderscore
                | _ => false))
  | [] => false

/-- A double. -/
def isFloat (cs : List Char) : Bool :=
  let (_, unsigned) := Binary64.takeSign cs
  let leadingPoint := match cs with
    | '.' :: c :: rest => isDigit c && isOptionalExponent (rest.dropWhile isDigitOrUnderscore)
    | _ => false
  isPointed unsigned || leadingPoint ||
    [".inf", ".Inf", ".INF"].contains (String.ofList unsigned) ||
    [".nan", ".NaN", ".NAN"].contains (String.ofList cs)

/-- The parts of a day or moment as they are written. -/
structure TimestampParts where
  year : Nat
  month : Nat
  day : Nat
  /-- Hour, minute, second, and the digits of the fraction. -/
  time : Option (Nat × Nat × Nat × List Char)
  /-- The offset in seconds. -/
  offset : Option Int
  /-- Were month and day written with two digits each? -/
  full : Bool

/-- One digit, or two if there are two. -/
def oneOrTwoDigits : List Char → Option (Nat × List Char)
  | a :: b :: rest => do
      let x ← digitValue? a
      match digitValue? b with
      | some y => pure (10 * x + y, rest)
      | none => pure (x, b :: rest)
  | [a] => (digitValue? a).map (·, [])
  | [] => none

/-- Exactly two digits. -/
def twoDigits : List Char → Option (Nat × List Char)
  | a :: b :: rest => do
      let x ← digitValue? a
      let y ← digitValue? b
      pure (10 * x + y, rest)
  | _ => none

/-- The offset at the end of a moment: nothing, a `Z`, or a sign with hours and perhaps minutes.
`none` means that the characters are no offset. -/
def offsetPart (cs : List Char) : Option (Option Int) :=
  if cs.isEmpty then some none
  else
    match cs.dropWhile fun c => c == ' ' || c == '\t' with
    | ['Z'] => some (some 0)
    | sign :: rest =>
        if sign == '+' || sign == '-' then do
          let (hours, rest) ← oneOrTwoDigits rest
          let minutes ← match rest with
            | [] => some 0
            | ':' :: rest => match twoDigits rest with
                | some (m, []) => some m
                | _ => none
            | _ => none
          let seconds : Int := hours * 3600 + minutes * 60
          pure (some (if sign == '-' then -seconds else seconds))
        else none
    | [] => none

/-- The time of day and the offset after a day. -/
def timePart (cs : List Char) : Option ((Nat × Nat × Nat × List Char) × Option Int) := do
  let cs ← match cs with
    | c :: rest =>
        if c == 'T' || c == 't' then some rest
        else if c == ' ' || c == '\t' then some (rest.dropWhile fun c => c == ' ' || c == '\t')
        else none
    | [] => none
  let (hour, cs) ← oneOrTwoDigits cs
  let (minute, cs) ← match cs with
    | ':' :: rest => twoDigits rest
    | _ => none
  let (second, cs) ← match cs with
    | ':' :: rest => twoDigits rest
    | _ => none
  let (fraction, cs) := match cs with
    | '.' :: rest => (rest.takeWhile isDigit, rest.dropWhile isDigit)
    | rest => ([], rest)
  let offset ← offsetPart cs
  pure ((hour, minute, second, fraction), offset)

/-- The parts of a day or a moment, if the text is one. -/
def timestampParts? (cs : List Char) : Option TimestampParts := do
  let (century, cs) ← twoDigits cs
  let (years, cs) ← twoDigits cs
  let (month, afterMonth) ← match cs with
    | '-' :: rest => oneOrTwoDigits rest
    | _ => none
  let (day, afterDay) ← match afterMonth with
    | '-' :: rest => oneOrTwoDigits rest
    | _ => none
  let full := cs.length - afterMonth.length == 3 && afterMonth.length - afterDay.length == 3
  let year := 100 * century + years
  if afterDay.isEmpty then
    pure { year, month, day, time := none, offset := none, full }
  else
    let (time, offset) ← timePart afterDay
    pure { year, month, day, time := some time, offset, full }

/-- A day written in full, or a moment. -/
def isTimestamp (cs : List Char) : Bool :=
  match timestampParts? cs with
  | some parts => parts.full || parts.time.isSome
  | none => false

/-- Leaves out one line feed at the end. -/
def dropFinalBreak (cs : List Char) : List Char :=
  if cs.getLast? == some '\n' then cs.dropLast else cs

/-- The tag that a scalar without a tag has when it is written plain. -/
def impliedTag (text : String) : String :=
  let cs := dropFinalBreak text.toList
  let word := String.ofList cs
  if cs.isEmpty then (if text.isEmpty then Tag.null else Tag.text)
  else if boolWords.contains word then Tag.bool
  else if isFloat cs then Tag.float
  else if isInt cs then Tag.int
  else if word == "<<" then Tag.merge
  else if nullWords.contains word then Tag.null
  else if isTimestamp cs then Tag.timestamp
  else if word == "=" then Tag.value
  else if ["!", "&", "*"].contains word then Tag.indicator
  else Tag.text

end DevMachines.Yaml
