import DevMachines.Text.Printable
import DevMachines.Text.Utf8

/-!
# Texts in quotes

How a text is shown when a reader must see exactly what it holds: in single quotes, or in double
quotes when it has a single quote and no double one; with a backslash before a backslash and before
the quote in use; with short names for tab, line feed and carriage return; and with the code point
in hexadecimal for every other character that has no visible form.
-/

namespace DevMachines.Text

/-- Pads a hexadecimal number with zeros up to a width. -/
def hexPadded (width n : Nat) : List Char :=
  let digits := Nat.toDigits 16 n
  List.replicate (width - digits.length) '0' ++ digits

/-- The escape of a code point: two, four or eight hexadecimal digits. -/
def hexEscape (n : Nat) : List Char :=
  if n < 0x100 then '\\' :: 'x' :: hexPadded 2 n
  else if n < 0x10000 then '\\' :: 'u' :: hexPadded 4 n
  else '\\' :: 'U' :: hexPadded 8 n

/-- The quote for a text: double only if that saves an escape. -/
def quoteFor (cs : List Char) : Char :=
  if cs.contains '\'' && !cs.contains '"' then '"' else '\''

/-- One character between quotes. -/
def quotedChar (quote c : Char) : List Char :=
  if c == quote || c == '\\' then ['\\', c]
  else if c == '\t' then ['\\', 't']
  else if c == '\n' then ['\\', 'n']
  else if c == '\r' then ['\\', 'r']
  else if isPrintable c then [c]
  else hexEscape c.toNat

/-- The text in quotes. -/
def quoted (text : String) : String :=
  let quote := quoteFor text.toList
  String.ofList (quote :: (text.toList.flatMap (quotedChar quote) ++ [quote]))

/-- One octet between quotes: only visible ASCII stands for itself. -/
def quotedOctet (quote : Char) (b : UInt8) : List Char :=
  let c := Char.ofNat b.toNat
  if b.toNat < 0x7f then quotedChar quote c else hexEscape b.toNat

/-- Octets in quotes, marked by a leading `b`. -/
def quotedOctets (octets : Octets) : String :=
  let quote := quoteFor (octets.map fun b => Char.ofNat b.toNat)
  String.ofList ('b' :: quote :: (octets.flatMap (quotedOctet quote) ++ [quote]))

end DevMachines.Text
