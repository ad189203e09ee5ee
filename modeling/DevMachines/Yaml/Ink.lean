import DevMachines.Value
import DevMachines.Yaml.Style

/-!
# Putting characters on a page

What is written depends on what stands to the left: whether a blank is needed, and whether the line
has only indentation so far, in which case a nested collection may begin on the same line.  The
`Pen` knows that, and a piece of text is a function from a pen to characters and the pen after them.

Lines are folded at the first blank after column eighty.
-/

namespace DevMachines.Yaml

/-- Where the writing stands. -/
structure Pen where
  column : Nat
  /-- Is the last thing written a blank or a line break? -/
  afterBlank : Bool
  /-- Has the line nothing but indentation and indicators so far? -/
  inIndentation : Bool
  /-- The labels of the nodes that have been written. -/
  written : List Label
  deriving Repr

/-- The start of a page. -/
def Pen.start : Pen := ⟨0, true, true, []⟩

/-- A piece of text: characters, and what they do to the pen. -/
def Ink : Type := Pen → List Char × Pen

namespace Ink

/-- Nothing. -/
def none : Ink := fun pen => ([], pen)

/-- One piece after another. -/
def andThen (a b : Ink) : Ink := fun pen =>
  let (first, pen) := a pen
  let (second, pen) := b pen
  (first ++ second, pen)

instance : Append Ink := ⟨andThen⟩

/-- A piece of text that depends on the pen. -/
def choose (piece : Pen → Ink) : Ink := fun pen => piece pen pen

/-- Characters that are laid out from a column on, with the column after them. -/
def run (layout : Nat → List Char × Nat) : Ink := fun pen =>
  let (chars, column) := layout pen.column
  (chars, { pen with column })

/-- The column at which lines are folded. -/
def bestWidth : Nat := 80

/-- A line break. -/
def lineBreak : Ink := fun pen =>
  (['\n'], { pen with column := 0, afterBlank := true, inIndentation := true })

/-- Begins a line with an indentation, unless the writing stands in one already. -/
def startLine (indent : Nat) : Ink := fun pen =>
  let (breaks, pen) :=
    if !pen.inIndentation || indent < pen.column || (pen.column == indent && !pen.afterBlank) then
      lineBreak pen
    else ([], pen)
  if pen.column < indent then
    (breaks ++ List.replicate (indent - pen.column) ' ',
      { pen with column := indent, afterBlank := true })
  else (breaks, pen)

/-- A mark.  A blank goes before it if it needs one. -/
def mark (text : List Char) (needsBlank : Bool) : Ink := fun pen =>
  let chars := if pen.afterBlank || !needsBlank then text else ' ' :: text
  (chars, { pen with
    column := pen.column + chars.length, afterBlank := false, inIndentation := false })

/-- A mark after which no blank is needed. -/
def spacedMark (text : List Char) (needsBlank : Bool) : Ink := fun pen =>
  let (chars, pen) := mark text needsBlank pen
  (chars, { pen with afterBlank := true })

/-- A mark after which a nested collection may begin on the same line, if the line has only such
marks so far. -/
def openingMark (text : List Char) : Ink := fun pen =>
  let (chars, after) := mark text true pen
  (chars, { after with inIndentation := pen.inIndentation })

/-! ## Plain and single-quoted text -/

/-- What takes the place of a single blank in running text: the blank, or a new line if the line is
full. -/
def foldedBlank (indent : Nat) (mayFold : Bool) (column : Nat) : List Char × Nat :=
  if mayFold && bestWidth < column then ('\n' :: List.replicate indent ' ', indent)
  else ([' '], column + 1)

/-- Running text on folded lines.  A blank with another beside it stays. -/
def plainRun (indent : Nat) (split : Bool) : Char → Nat → List Char → List Char × Nat
  | _, column, [] => ([], column)
  | before, column, c :: rest =>
      if c == ' ' then
        let single := before != ' ' && rest.headD endMark != ' '
        let (chars, column) := foldedBlank indent (split && single) column
        let (more, column) := plainRun indent split c column rest
        (chars ++ more, column)
      else
        let (more, column) := plainRun indent split c (column + 1) rest
        (c :: more, column)

/-- A plain scalar. -/
def plain (indent : Nat) (split : Bool) (text : List Char) : Ink := fun pen =>
  if text.isEmpty then ([], pen)
  else
    let column := if pen.afterBlank then pen.column else pen.column + 1
    let (chars, after) := plainRun indent split endMark column text
    ((if pen.afterBlank then chars else ' ' :: chars),
      { pen with column := after, afterBlank := false, inIndentation := false })

/-- The inside of single quotes.  A quote is doubled; a run of line breaks is one break longer than
what it means, because reading folds it, and is followed by the indentation. -/
def singleQuotedRun (indent : Nat) (split : Bool) : Char → Nat → List Char → List Char × Nat
  | _, column, [] => ([], column)
  | before, column, c :: rest =>
      if c == ' ' then
        let single :=
          before != ' ' && before != endMark && !rest.isEmpty && rest.headD endMark != ' '
        let (chars, column) := foldedBlank indent (split && single) column
        let (more, column) := singleQuotedRun indent split c column rest
        (chars ++ more, column)
      else if c == '\n' then
        let breaks := if before == '\n' then ['\n'] else ['\n', '\n']
        let isLast := rest.headD endMark != '\n'
        let (more, column) :=
          singleQuotedRun indent split c (if isLast then indent else 0) rest
        (breaks ++ (if isLast then List.replicate indent ' ' else []) ++ more, column)
      else
        let chars := if c == '\'' then ['\'', '\''] else [c]
        let (more, column) := singleQuotedRun indent split c (column + chars.length) rest
        (chars ++ more, column)

/-- A scalar in single quotes. -/
def singleQuoted (indent : Nat) (split : Bool) (text : List Char) : Ink :=
  mark ['\''] true ++ run (fun column => singleQuotedRun indent split endMark column text) ++
    mark ['\''] false

/-! ## Double-quoted text -/

/-- The letter that names a character in an escape. -/
def escapeLetter (c : Char) : Option Char :=
  match c with
  | '\x00' => some '0'
  | '\x07' => some 'a'
  | '\x08' => some 'b'
  | '\t' => some 't'
  | '\n' => some 'n'
  | '\x0b' => some 'v'
  | '\x0c' => some 'f'
  | '\r' => some 'r'
  | '\x1b' => some 'e'
  | '"' => some '"'
  | '\\' => some '\\'
  | '\u0085' => some 'N'
  | '\u00a0' => some '_'
  | '\u2028' => some 'L'
  | '\u2029' => some 'P'
  | _ => Option.none

/-- A number in capital hexadecimal digits, with leading zeros. -/
def capitalHex (width n : Nat) : List Char :=
  let digits := (Nat.toDigits 16 n).map Char.toUpper
  List.replicate (width - digits.length) '0' ++ digits

/-- The escape of a character. -/
def escape (c : Char) : List Char :=
  match escapeLetter c with
  | some letter => ['\\', letter]
  | Option.none =>
      if c.toNat ≤ 0xff then '\\' :: 'x' :: capitalHex 2 c.toNat
      else if c.toNat ≤ 0xffff then '\\' :: 'u' :: capitalHex 4 c.toNat
      else '\\' :: 'U' :: capitalHex 8 c.toNat

/-- Does a character stand for itself in double quotes? -/
def isVisible (c : Char) : Bool := ' ' ≤ c && c ≤ '~' && c != '"' && c != '\\'

/-- A fold inside double quotes: a backslash takes back the break, and a second one keeps a blank at
the start of the next line. -/
def quotedFold (indent : Nat) (next : Char) : List Char × Nat :=
  let fold := '\\' :: '\n' :: List.replicate indent ' '
  if next == ' ' then (fold ++ ['\\'], indent + 1) else (fold, indent)

/-- The inside of double quotes.  `isFirst` says that the text begins here, and `afterEscape` that
the character before was an escape, or the text begins here. -/
def doubleQuotedRun (indent : Nat) (split : Bool) :
    Bool → Bool → Nat → List Char → List Char × Nat
  | _, _, column, [] => ([], column)
  | isFirst, afterEscape, column, c :: rest =>
      let mayFold := split && !isFirst && !rest.isEmpty
      if isVisible c then
        let (fold, column) :=
          if mayFold && (c == ' ' || afterEscape) && bestWidth < column then quotedFold indent c
          else ([], column)
        let (more, column) := doubleQuotedRun indent split false false (column + 1) rest
        (fold ++ c :: more, column)
      else
        let chars := escape c
        let column := column + chars.length
        let (fold, column) :=
          if mayFold && bestWidth < column - 1 then quotedFold indent (rest.headD endMark)
          else ([], column)
        let (more, column) := doubleQuotedRun indent split false true column rest
        (chars ++ fold ++ more, column)

/-- A scalar in double quotes. -/
def doubleQuoted (indent : Nat) (split : Bool) (text : List Char) : Ink :=
  mark ['"'] true ++ run (fun column => doubleQuotedRun indent split true true column text) ++
    mark ['"'] false

/-! ## Blocks of lines -/

/-- The lines of a literal block: a line break is written as it is, and each line that is not empty
is indented. -/
def literalRun (indent : Nat) : Bool → List Char → List Char
  | _, [] => []
  | atStart, c :: rest =>
      if c == '\n' then '\n' :: literalRun indent true rest
      else if atStart then List.replicate indent ' ' ++ c :: literalRun indent false rest
      else c :: literalRun indent false rest

/-- The indicators of a literal block: the indentation if the text begins with a blank, and what
happens to the breaks at its end. -/
def literalHints (text : List Char) : List Char :=
  let leading := match text.head? with
    | some c => if c == ' ' || c == '\n' then ['2'] else []
    | Option.none => []
  let trailing := match text.reverse with
    | '\n' :: '\n' :: _ => ['+']
    | ['\n'] => ['+']
    | '\n' :: _ => []
    | _ => ['-']
  leading ++ trailing

/-- The lines below the indicator of a literal block. -/
def literalLines (indent : Nat) (text : List Char) : Ink := fun pen =>
  let lines := literalRun indent true text
  let lines := if text.getLast? == some '\n' then lines else lines ++ ['\n']
  ('\n' :: lines, { pen with column := 0, afterBlank := true, inIndentation := true })

/-- A literal block. -/
def literal (indent : Nat) (text : List Char) : Ink :=
  mark ('|' :: literalHints text) true ++ literalLines indent text

end Ink
end DevMachines.Yaml
