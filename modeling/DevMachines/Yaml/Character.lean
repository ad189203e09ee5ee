/-!
# Characters of a YAML text

The classes that the grammar is written in: line breaks, blanks, the characters that may stand in a
text at all, those of names and of addresses in tags.  The end of the text is treated as one more
character, `endMark`; it is NUL, which no readable text contains, so nothing is lost by writing
"blank, break or end" as one class.
-/

namespace DevMachines.Yaml

/-- Stands for the end of the text. -/
def endMark : Char := '\x00'

/-- A character that ends a line. -/
def isBreak (c : Char) : Bool :=
  c == '\n' || c == '\r' || c == '\u0085' || c == '\u2028' || c == '\u2029'

/-- A line break or the end of the text. -/
def isBreakOrEnd (c : Char) : Bool := c == endMark || isBreak c

/-- A blank, a line break or the end of the text. -/
def isBlankBreakOrEnd (c : Char) : Bool := c == ' ' || isBreakOrEnd c

/-- A character that cannot belong to a word: a blank, a tab, a line break or the end. -/
def isSpaceOrEnd (c : Char) : Bool := c == '\t' || isBlankBreakOrEnd c

/-- The characters that a text may contain. -/
def isReadable (c : Char) : Bool :=
  let n := c.toNat
  n == 0x09 || n == 0x0a || n == 0x0d || (0x20 ≤ n && n ≤ 0x7e) || n == 0x85 ||
    (0xa0 ≤ n && n ≤ 0xd7ff) || (0xe000 ≤ n && n ≤ 0xfffd) || (0x10000 ≤ n && n ≤ 0x10ffff)

/-- An ASCII letter or digit, a hyphen or an underscore. -/
def isNameChar (c : Char) : Bool :=
  ('0' ≤ c && c ≤ '9') || ('A' ≤ c && c ≤ 'Z') || ('a' ≤ c && c ≤ 'z') || c == '-' || c == '_'

/-- A character that an address in a tag may contain; a percent sign starts an escaped octet. -/
def isAddressChar (c : Char) : Bool :=
  ('0' ≤ c && c ≤ '9') || ('A' ≤ c && c ≤ 'Z') || ('a' ≤ c && c ≤ 'z') ||
    "-;/?:@&=+$,_.!~*'()[]%".toList.contains c

/-- What may follow the name of an anchor or an alias. -/
def endsAnchorName (c : Char) : Bool := isSpaceOrEnd c || "?:,]\x7d%@`".toList.contains c

/-- The indicators that no plain scalar starts with. -/
def isIndicator (c : Char) : Bool := "-?:,[]\x7b\x7d#&*!|>'\"%@`".toList.contains c

/-- The brackets, the comma and the question mark that end a plain scalar inside brackets. -/
def isFlowIndicator (c : Char) : Bool := ",?[]\x7b\x7d".toList.contains c

end DevMachines.Yaml
