import DevMachines.Yaml.Tag
import DevMachines.Yaml.Character

/-!
# How a scalar is written

A text that needs no protection is written plain.  What would be read as something else is put into
single quotes, and what single quotes cannot hold into double quotes, where every character outside
visible ASCII is escaped.  `Scalar.Traits` lists what is asked of a text, and `styleOf` decides.

The traits err on the side of protection: a text that starts with three hyphens, say, is quoted
wherever it stands.
-/

namespace DevMachines.Yaml

/-- The ways to write a scalar. -/
inductive ScalarStyle where
  | plain
  | singleQuoted
  | doubleQuoted
  | literal
  deriving DecidableEq, Repr

/-- A line break inside a text that is written. -/
def isWrittenBreak (c : Char) : Bool := c == '\n' || c == '\u0085' || c == '\u2028' || c == '\u2029'

/-- A character that only double quotes can hold. -/
def needsEscape (c : Char) : Bool := !(c == '\n' || (' ' ≤ c && c ≤ '~'))

/-- Is the character at the front a blank, a break or the end? -/
def blankNext (cs : List Char) : Bool := isSpaceOrEnd (cs.headD endMark)

/-- Can the first character be taken for an indicator? -/
def startsWithIndicator : List Char → Bool
  | [] => false
  | c :: rest =>
      "#,[]\x7b\x7d&*!|>'\"%@`".toList.contains c ||
        ((c == '?' || c == ':' || c == '-') && blankNext rest)

/-- Is there a colon before a blank, or a number sign after one, behind the first character? -/
def hasInnerIndicator : Char → List Char → Bool
  | _, [] => false
  | before, c :: rest =>
      (c == ':' && blankNext rest) || (c == '#' && isSpaceOrEnd before) || hasInnerIndicator c rest

/-- Do two characters stand side by side, the first of one class and the second of another? -/
def hasPair (p q : Char → Bool) : List Char → Bool
  | a :: b :: rest => (p a && q b) || hasPair p q (b :: rest)
  | _ => false

/-- A blank in the narrow sense. -/
def isSpace (c : Char) : Bool := c == ' '

/-- Can a text be written without quotes, in a block? -/
def allowsPlain (cs : List Char) : Bool :=
  match cs with
  | [] => true
  | first :: rest =>
      !(isSpace first || isSpace (rest.getLast?.getD first)) &&
        !cs.any isWrittenBreak && !cs.any needsEscape &&
        !startsWithIndicator cs && !hasInnerIndicator first rest &&
        !(['-', '-', '-'].isPrefixOf cs || ['.', '.', '.'].isPrefixOf cs)

/-- Can a text be written in single quotes?  Breaks and blanks must not touch in it, because folding
would eat the blanks. -/
def allowsSingleQuotes (cs : List Char) : Bool :=
  !cs.any needsEscape && !hasPair isSpace isWrittenBreak cs && !hasPair isWrittenBreak isSpace cs

/-- Can a text be written as a block of lines? -/
def allowsLiteral (cs : List Char) : Bool :=
  !cs.isEmpty && !cs.any needsEscape && !hasPair isSpace isWrittenBreak cs &&
    cs.getLast? != some ' '

/-- The style of a scalar.  `asLines` asks for a block of lines; a simple key stays on one line. -/
def styleOf (tag text : String) (asLines simpleKey : Bool) : ScalarStyle :=
  let cs := text.toList
  let awkwardKey := simpleKey && (cs.isEmpty || cs.any isWrittenBreak)
  if !asLines && tag == impliedTag text && allowsPlain cs && !awkwardKey then .plain
  else if asLines then (if !simpleKey && allowsLiteral cs then .literal else .doubleQuoted)
  else if allowsSingleQuotes cs && !(simpleKey && cs.any isWrittenBreak) then .singleQuoted
  else .doubleQuoted

/-- Must the tag be written?  A plain scalar implies its tag, and a quoted one is a text. -/
def writesTag (tag : String) (style : ScalarStyle) : Bool :=
  style != .plain && tag != Tag.text

end DevMachines.Yaml
