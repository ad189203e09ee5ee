import DevMachines.Yaml.Character

/-!
# A place in a text

A cursor is what remains of a text, with the number of characters and lines behind it and its
column.  Indentation is measured in columns, and a key must end on the line where it starts, so both
are kept.
-/

namespace DevMachines.Yaml

/-- A place in a text. -/
structure Cursor where
  rest : List Char
  index : Nat
  line : Nat
  column : Nat
  deriving Repr

namespace Cursor

/-- The start of a text. -/
def start (text : List Char) : Cursor := ⟨text, 0, 0, 0⟩

/-- The character `n` places ahead, or the end mark. -/
def peek (c : Cursor) (n : Nat) : Char := c.rest.getD n endMark

/-- The character at the cursor, or the end mark. -/
def here (c : Cursor) : Char := c.rest.headD endMark

/-- Moves over one character.  A carriage return before a line feed does not end the line yet, and a
byte order mark takes no column. -/
def next (c : Cursor) : Cursor :=
  match c.rest with
  | [] => c
  | ch :: rest =>
      if isBreak ch && !(ch == '\r' && rest.headD endMark == '\n') then
        ⟨rest, c.index + 1, c.line + 1, 0⟩
      else if ch == '\ufeff' then ⟨rest, c.index + 1, c.line, c.column⟩
      else ⟨rest, c.index + 1, c.line, c.column + 1⟩

/-- Moves over `n` characters. -/
def skip : Nat → Cursor → Cursor
  | 0, c => c
  | n + 1, c => skip n c.next

/-- The characters up to the first that fails a test, and the place of that one. -/
def span (p : Char → Bool) (c : Cursor) : List Char × Cursor :=
  let taken := c.rest.takeWhile p
  (taken, c.skip taken.length)

/-- Moves over the characters that pass a test. -/
def skipWhile (p : Char → Bool) (c : Cursor) : Cursor := (c.span p).2

/-- Moves over one line break, if there is one, and says how it reads: the line and paragraph
separators stand for themselves, every other break is a line feed. -/
def lineBreak (c : Cursor) : Option (Char × Cursor) :=
  let ch := c.here
  if ch == '\r' && c.peek 1 == '\n' then some ('\n', c.next.next)
  else if ch == '\r' || ch == '\n' || ch == '\u0085' then some ('\n', c.next)
  else if ch == '\u2028' || ch == '\u2029' then some (ch, c.next)
  else none

/-- Does a line with three hyphens, or three dots, begin here? -/
def atMarker (mark : Char) (c : Cursor) : Bool :=
  c.here == mark && c.peek 1 == mark && c.peek 2 == mark && isSpaceOrEnd (c.peek 3)

/-- Does a line begin here that separates documents? -/
def atSeparator (c : Cursor) : Bool := c.atMarker '-' || c.atMarker '.'

end Cursor
end DevMachines.Yaml
