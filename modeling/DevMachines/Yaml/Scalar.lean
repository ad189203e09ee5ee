import DevMachines.Yaml.Tag
import DevMachines.Yaml.Token
import DevMachines.Value.Display
import DevMachines.Text.Base64
import DevMachines.Text.Blank
import DevMachines.Text.Digit
import DevMachines.Text.Small

/-!
# The values of scalars

A tag and a text make a value, or do not: a tag can be put on any text, and even a text that implies
its own tag may name a day that the calendar does not have.  Each way to fail is a cause of its own.
Faults in the *structure* of the document are one cause, `malformed`, because they are reported
alike; the others are reported each in its own words.
-/

namespace DevMachines.Yaml

/-- Why a document has no value. -/
inductive ValueFault where
  | malformed
  | noSuchCodePoint (code : Nat)
  /-- A number without a single character. -/
  | noCharacters
  | notInteger (text : String) (base : Nat)
  | tooManyDigits (count : Nat)
  | notNumber (text : String)
  /-- A number in sixties with more places than doubles can weigh. -/
  | tooManySixties
  | notTruth (word : String)
  | notTimestamp
  /-- A moment that is not written as a text. -/
  | notText
  | noSuchTime (fault : CalendarFault)
  /-- An integer that is to be written is too long. -/
  | tooLong
  deriving DecidableEq, Repr

namespace ValueFault

/-- The fault of a text is a fault of its value. -/
def ofRead : ReadFault → ValueFault
  | .malformed => .malformed
  | .noSuchCodePoint code => .noSuchCodePoint code

/-- The class of a fault, as reports name it. -/
def kindName : ValueFault → String
  | .malformed => "YAMLError"
  | .noSuchCodePoint code => if code < 0x80000000 then "ValueError" else "OverflowError"
  | .noCharacters => "IndexError"
  | .notInteger .. => "ValueError"
  | .tooManyDigits _ => "ValueError"
  | .notNumber _ => "ValueError"
  | .tooManySixties => "OverflowError"
  | .notTruth _ => "KeyError"
  | .notTimestamp => "AttributeError"
  | .notText => "TypeError"
  | .noSuchTime _ => "ValueError"
  | .tooLong => "ValueError"

/-- The wording of a fault. -/
def message : ValueFault → String
  | .malformed => "<yaml>"
  | .noSuchCodePoint code =>
      if code < 0x80000000 then "chr() arg not in range(0x110000)"
      else "Python int too large to convert to C int"
  | .noCharacters => "string index out of range"
  | .notInteger text base =>
      s!"invalid literal for int() with base {base}: " ++
        String.ofList ((Text.quoted text).toList.take 200)
  | .tooManyDigits count =>
      s!"Exceeds the limit ({digitLimit} digits) for integer string conversion: value has " ++
        s!"{count} digits; use sys.set_int_max_str_digits() to increase the limit"
  | .notNumber text => "could not convert string to float: " ++ Text.quoted text
  | .tooManySixties => "int too large to convert to float"
  | .notTruth word => Text.quoted word
  | .notTimestamp => "'NoneType' object has no attribute 'groupdict'"
  | .notText => "expected string or bytes-like object, got 'list'"
  | .noSuchTime fault => fault.message
  | .tooLong => tooLongReport

end ValueFault

/-- Leaves out the mark that a number of the base may begin with. -/
def dropBaseMark (base : Nat) : List Char → List Char
  | '0' :: c :: rest =>
      let mark := c.toLower
      if (base = 2 ∧ mark = 'b') ∨ (base = 8 ∧ mark = 'o') ∨ (base = 16 ∧ mark = 'x') then rest
      else '0' :: c :: rest
  | cs => cs

/-- Reads an integer in a base, with blanks around it and a sign. -/
def readInt (base : Nat) (text : List Char) : Except ValueFault Int :=
  let (negative, digits) := Binary64.takeSign ((Text.trim text).map Text.asciiDigit)
  match readDigits? base (dropBaseMark base digits) with
  | some n =>
      if base = 10 ∧ digitLimit < digits.length then .error (.tooManyDigits digits.length)
      else .ok (if negative then -(n : Int) else n)
  | none => .error (.notInteger (String.ofList text) base)

/-- Reads a double, with blanks around it. -/
def readFloat (text : List Char) : Except ValueFault Binary64 :=
  match Binary64.ofText? ((Text.trim text).map Text.asciiDigit) with
  | some x => .ok x
  | none => .error (.notNumber (String.ofList text))

/-- The parts of a text between colons. -/
def splitColons (cs : List Char) : List (List Char) :=
  cs.foldr (fun c parts => match parts with
    | part :: rest => if c = ':' then [] :: part :: rest else (c :: part) :: rest
    | [] => if c = ':' then [[], []] else [[c]]) [[]]

/-- The integer that a scalar with the integer tag is. -/
def intValue (text : String) : Except ValueFault Int := do
  let cs := text.toList.filter (· != '_')
  if cs.isEmpty then throw .noCharacters
  let (negative, digits) := Binary64.takeSign cs
  let magnitude ← match digits with
    | [] => throw .noCharacters
    | ['0'] => pure 0
    | '0' :: 'b' :: rest => readInt 2 rest
    | '0' :: 'x' :: rest => readInt 16 rest
    | '0' :: _ => readInt 8 digits
    | _ =>
        if digits.contains ':' then do
          let places ← (splitColons digits).mapM (readInt 10)
          pure (places.foldl (fun n place => n * 60 + place) 0)
        else readInt 10 digits
  pure (if negative then -magnitude else magnitude)

/-- The double that the weight of a place is. -/
def placeWeight (weight : Int) : Except ValueFault Binary64 :=
  match Binary64.ofInt? weight with
  | some w => .ok w
  | none => .error .tooManySixties

/-- The weighted sum of places, the last of weight one and each earlier one of sixty times more. -/
def sumSixties : List Binary64 → Int → Binary64 → Except ValueFault Binary64
  | [], _, sum => .ok sum
  | place :: rest, weight, sum => do
      let w ← placeWeight weight
      sumSixties rest (weight * 60) (sum.add (place.mul w))

/-- The double that a scalar with the double tag is. -/
def floatValue (text : String) : Except ValueFault Binary64 := do
  let cs := Text.smallFrom [] (text.toList.filter (· != '_'))
  if cs.isEmpty then throw .noCharacters
  let (negative, digits) := Binary64.takeSign cs
  let signed (x : Binary64) : Binary64 := if negative then x.neg else x
  match String.ofList digits with
  | ".inf" => pure (signed (.infinite false))
  | ".nan" => pure .nan
  | _ =>
      if digits.contains ':' then do
        let places ← (splitColons digits).mapM readFloat
        return signed (← sumSixties places.reverse 1 .zero)
      else return signed (← readFloat digits)

/-- The truth value that a word is. -/
def boolValue (text : String) : Except ValueFault Bool :=
  let word := Text.smallLetters text
  if ["yes", "true", "on"].contains word then .ok true
  else if ["no", "false", "off"].contains word then .ok false
  else .error (.notTruth word)

/-- The microseconds that the digits of a fraction write; digits after the sixth are cut off. -/
def microseconds (digits : List Char) : Nat :=
  let six := digits.take 6 ++ List.replicate (6 - digits.length) '0'
  (readDigits? 10 six).getD 0

/-- The day or moment that a text is. -/
def timestampValue (label : Label) (text : String) : Except ValueFault Value :=
  match timestampParts? (dropFinalBreak text.toList) with
  | none => .error .notTimestamp
  | some parts =>
      let date : Date := ⟨parts.year, parts.month, parts.day⟩
      match parts.time with
      | none =>
          match date.check with
          | .ok date => .ok (.date (some label) date)
          | .error fault => .error (.noSuchTime fault)
      | some (hour, minute, second, fraction) =>
          let moment : Moment :=
            { date, hour, minute, second, microsecond := microseconds fraction
              offset := parts.offset }
          match moment.check with
          | .ok moment => .ok (.moment (some label) moment)
          | .error fault => .error (.noSuchTime fault)

/-- The octets that the letters of a scalar write. -/
def octetsValue (text : String) : Except ValueFault Value :=
  if text.toList.all (·.toNat < 0x80) then
    match Text.Base64.decode text.toList with
    | some octets => .ok (.octets octets)
    | none => .error .malformed
  else .error .malformed

/-- The value of a scalar with one of the tags of scalars; other tags have no scalar values. -/
def scalarValue (label : Label) (tag text : String) : Except ValueFault Value :=
  if tag = Tag.text then .ok (.text text)
  else if tag = Tag.null then .ok .null
  else if tag = Tag.bool then (boolValue text).map .bool
  else if tag = Tag.int then (intValue text).map .int
  else if tag = Tag.float then (floatValue text).map .float
  else if tag = Tag.timestamp then timestampValue label text
  else if tag = Tag.binary then octetsValue text
  else .error .malformed

end DevMachines.Yaml
