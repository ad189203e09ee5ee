import DevMachines.Number.Notation

/-!
# JSON texts

A JSON value and its two layouts: on one line, and indented with two blanks per level.  Both are
pure ASCII: a character outside it is written as the hexadecimal code of its UTF-16 units, so a
character beyond the basic plane becomes a surrogate pair.  Empty collections take no line of their
own in either layout.

Objects are lists of members, because the order of members is part of what is written.
-/

namespace DevMachines

/-- A JSON value; the members of an object are in order. -/
inductive Json where
  | null
  | bool (b : Bool)
  | int (n : Int)
  | float (x : Binary64)
  | str (s : String)
  | arr (items : List Json)
  | obj (members : List (String × Json))
  deriving Inhabited, Repr

namespace Json

/-- Four hexadecimal digits of a UTF-16 unit. -/
def unitEscape (n : Nat) : List Char :=
  let digits := Nat.toDigits 16 n
  '\\' :: 'u' :: (List.replicate (4 - digits.length) '0' ++ digits)

/-- One character between double quotes. -/
def escapeChar (c : Char) : List Char :=
  if c == '"' then ['\\', '"']
  else if c == '\\' then ['\\', '\\']
  else if c == '\n' then ['\\', 'n']
  else if c == '\r' then ['\\', 'r']
  else if c == '\t' then ['\\', 't']
  else if c == '\x0c' then ['\\', 'f']
  else if c == '\x08' then ['\\', 'b']
  else if ' ' ≤ c && c ≤ '~' then [c]
  else if c.toNat < 0x10000 then unitEscape c.toNat
  else
    let n := c.toNat - 0x10000
    unitEscape (0xd800 + n / 0x400) ++ unitEscape (0xdc00 + n % 0x400)

/-- A text in double quotes. -/
def quote (s : String) : String :=
  String.ofList ('"' :: (s.toList.flatMap escapeChar ++ ['"']))

/-- The text of a double; the three values that are no numbers have names. -/
def floatText : Binary64 → String
  | .nan => "NaN"
  | .infinite negative => if negative then "-Infinity" else "Infinity"
  | x => x.toText

mutual

/-- Writes a value on one line. -/
def compact : Json → String
  | .null => "null"
  | .bool b => if b then "true" else "false"
  | .int n => intText n
  | .float x => floatText x
  | .str s => quote s
  | .arr items => "[" ++ ", ".intercalate (compactItems items) ++ "]"
  | .obj members => "\x7b" ++ ", ".intercalate (compactMembers members) ++ "\x7d"

/-- Writes each item on one line. -/
def compactItems : List Json → List String
  | [] => []
  | v :: rest => compact v :: compactItems rest

/-- Writes each member on one line. -/
def compactMembers : List (String × Json) → List String
  | [] => []
  | (k, v) :: rest => (quote k ++ ": " ++ compact v) :: compactMembers rest

end

/-- A line feed and the indentation of a level. -/
def lineStart (level : Nat) : String := "\n" ++ String.ofList (List.replicate (2 * level) ' ')

/-- Puts parts, each on a line of its own one level deeper, between brackets. -/
def block (level : Nat) (opening closing : String) : List String → String
  | [] => opening ++ closing
  | parts =>
      opening ++ lineStart (level + 1) ++ ("," ++ lineStart (level + 1)).intercalate parts ++
        lineStart level ++ closing

mutual

/-- Writes a value that stands on a level, with every item and member on a line of its own. -/
def indented (level : Nat) : Json → String
  | .null => "null"
  | .bool b => if b then "true" else "false"
  | .int n => intText n
  | .float x => floatText x
  | .str s => quote s
  | .arr items => block level "[" "]" (indentedItems (level + 1) items)
  | .obj members => block level "\x7b" "\x7d" (indentedMembers (level + 1) members)

/-- Writes each item. -/
def indentedItems (level : Nat) : List Json → List String
  | [] => []
  | v :: rest => indented level v :: indentedItems level rest

/-- Writes each member. -/
def indentedMembers (level : Nat) : List (String × Json) → List String
  | [] => []
  | (k, v) :: rest => (quote k ++ ": " ++ indented level v) :: indentedMembers level rest

end

end Json
end DevMachines
