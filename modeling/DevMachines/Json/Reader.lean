import DevMachines.Json

/-!
# Reading JSON

`Json.parse` reads a JSON text: a value with blanks around it and nothing behind it.  Members of an
object keep their order, and a name that comes twice gives two members.  A number with a point or an
exponent is a double, any other is an integer.  Two escapes of surrogates make one character; a
surrogate alone is refused.

Every reader returns what is left of the text.  A value has at most as many parts as its text has
characters, so the length of the text is enough fuel.
-/

namespace DevMachines.Json

/-- The blanks between the parts of a JSON text. -/
def isSpace (c : Char) : Bool := c == ' ' || c == '\n' || c == '\t' || c == '\r'

/-- What follows the blanks at the front. -/
def skipSpaces (cs : List Char) : List Char := cs.dropWhile isSpace

/-! ## Texts -/

/-- The number that four hexadecimal digits denote. -/
def readUnit : List Char → Option (Nat × List Char)
  | a :: b :: c :: d :: rest => (readDigits? 16 [a, b, c, d]).map (·, rest)
  | _ => none

/-- The character of a surrogate pair. -/
def pairChar (high low : Nat) : Char :=
  Char.ofNat (0x10000 + (high - 0xd800) * 0x400 + (low - 0xdc00))

/-- The character of an escape whose backslash and letter have been read, by its first unit. -/
def readUnits (cs : List Char) : Option (Char × List Char) := do
  let (unit, rest) ← readUnit cs
  if unit < 0xd800 ∨ 0xdfff < unit then pure (Char.ofNat unit, rest)
  else if 0xdc00 ≤ unit then none
  else
    match rest with
    | '\\' :: 'u' :: rest => do
        let (low, rest) ← readUnit rest
        if 0xdc00 ≤ low ∧ low ≤ 0xdfff then pure (pairChar unit low, rest) else none
    | _ => none

/-- The character of an escape whose backslash has been read. -/
def readEscape : List Char → Option (Char × List Char)
  | 'u' :: rest => readUnits rest
  | c :: rest =>
      if c = '"' ∨ c = '\\' ∨ c = '/' then some (c, rest)
      else if c = 'n' then some ('\n', rest)
      else if c = 'r' then some ('\r', rest)
      else if c = 't' then some ('\t', rest)
      else if c = 'f' then some ('\x0c', rest)
      else if c = 'b' then some ('\x08', rest)
      else none
  | [] => none

/-- The characters up to the closing quote. -/
def readChars : Nat → List Char → Option (List Char × List Char)
  | 0, _ => none
  | _ + 1, [] => none
  | fuel + 1, c :: rest =>
      if c = '"' then some ([], rest)
      else if c = '\\' then do
        let (c, rest) ← readEscape rest
        let (cs, rest) ← readChars fuel rest
        pure (c :: cs, rest)
      else if c < ' ' then none
      else do
        let (cs, rest) ← readChars fuel rest
        pure (c :: cs, rest)

/-- A text in quotes. -/
def readText (cs : List Char) : Option (String × List Char) :=
  match cs with
  | '"' :: rest => (readChars (rest.length + 1) rest).map fun (cs, rest) => (String.ofList cs, rest)
  | _ => none

/-! ## Numbers and names -/

/-- The characters that numbers are made of. -/
def isNumberChar (c : Char) : Bool :=
  (digitValue? c).isSome || c == '-' || c == '+' || c == '.' || c == 'e' || c == 'E'

/-- The integer that a text with an optional minus denotes. -/
def readInt? : List Char → Option Int
  | '-' :: digits => (readDigits? 10 digits).map fun n => -(n : Int)
  | digits => (readDigits? 10 digits).map fun n => (n : Int)

/-- A number. -/
def readNumber (cs : List Char) : Option (Json × List Char) :=
  let text := cs.takeWhile isNumberChar
  let rest := cs.dropWhile isNumberChar
  if text.any fun c => c == '.' || c == 'e' || c == 'E' then
    (Binary64.ofText? text).map fun x => (.float x, rest)
  else (readInt? text).map fun n => (.int n, rest)

/-- The values that have names. -/
def namedValues : List (String × Json) := [
  ("null", .null), ("true", .bool true), ("false", .bool false), ("NaN", .float .nan),
  ("Infinity", .float (.infinite false)), ("-Infinity", .float (.infinite true))]

/-- A value that has a name. -/
def readNamed (cs : List Char) : Option (Json × List Char) :=
  namedValues.findSome? fun (name, value) =>
    if name.toList.isPrefixOf cs then some (value, cs.drop name.length) else none

/-- A value without parts. -/
def readScalar (cs : List Char) : Option (Json × List Char) :=
  match cs with
  | '"' :: _ => (readText cs).map fun (s, rest) => (.str s, rest)
  | _ => (readNamed cs).orElse fun _ => readNumber cs

/-! ## Values -/

mutual

/-- A value. -/
def readValue : Nat → List Char → Option (Json × List Char)
  | 0, _ => none
  | fuel + 1, cs =>
      match skipSpaces cs with
      | '[' :: rest =>
          match skipSpaces rest with
          | ']' :: rest => some (.arr [], rest)
          | rest => (readItems fuel rest).map fun (items, rest) => (.arr items, rest)
      | c :: rest =>
          if c = '\x7b' then
            match skipSpaces rest with
            | c :: rest =>
                if c = '\x7d' then some (.obj [], rest)
                else (readMembers fuel (c :: rest)).map fun (members, rest) => (.obj members, rest)
            | [] => none
          else readScalar (c :: rest)
      | [] => none

/-- The items of an array, one at least, up to the closing bracket. -/
def readItems : Nat → List Char → Option (List Json × List Char)
  | 0, _ => none
  | fuel + 1, cs => do
      let (item, rest) ← readValue fuel cs
      match skipSpaces rest with
      | ',' :: rest => do
          let (items, rest) ← readItems fuel rest
          pure (item :: items, rest)
      | ']' :: rest => pure ([item], rest)
      | _ => none

/-- The members of an object, one at least, up to the closing brace. -/
def readMembers : Nat → List Char → Option (List (String × Json) × List Char)
  | 0, _ => none
  | fuel + 1, cs => do
      let (name, rest) ← readText (skipSpaces cs)
      match skipSpaces rest with
      | ':' :: rest => do
          let (value, rest) ← readValue fuel rest
          match skipSpaces rest with
          | c :: rest =>
              if c = ',' then do
                let (members, rest) ← readMembers fuel rest
                pure ((name, value) :: members, rest)
              else if c = '\x7d' then pure ([(name, value)], rest)
              else none
          | [] => none
      | _ => none

end

/-- Reads a JSON text. -/
def parse (text : String) : Option Json :=
  let cs := text.toList
  match readValue (cs.length + 1) cs with
  | some (value, rest) => if (skipSpaces rest).isEmpty then some value else none
  | none => none

end DevMachines.Json
