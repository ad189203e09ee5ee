import DevMachines.Terminal.Cell
import DevMachines.Text.Blank

/-!
# Laying a text out on lines

A text is laid out in a given width word by word.  A word takes the blanks behind it along, so the
words of a line put together are the line; a word that does not fit on what is left of its line
begins the next one.  A word that is too long for any line is folded over several lines, or begins a
line of its own and is cut there, with three dots in one cell for what is missing.

Line feeds end lines, and tabs lead to the next multiple of eight cells.
-/

namespace DevMachines.Terminal

/-- What becomes of a word that is longer than a line. -/
inductive Overflow where
  | fold
  | ellipsis
  deriving DecidableEq, Repr

/-- The parts of a text between line feeds. -/
def splitLines : List Char → List (List Char)
  | [] => [[]]
  | c :: rest =>
      match splitLines rest with
      | line :: lines => if c = '\n' then [] :: line :: lines else (c :: line) :: lines
      | [] => [[c]]

/-! ## Tabs -/

/-- The distance between two tab stops, in cells. -/
def tabSize : Nat := 8

/-- The parts of a line between tabs. -/
def splitTabs : List Char → List (List Char)
  | [] => [[]]
  | c :: rest =>
      match splitTabs rest with
      | part :: parts => if c = '\t' then [] :: part :: parts else (c :: part) :: parts
      | [] => [[c]]

/-- Puts parts together with blanks up to the next tab stop between them, at least one. -/
def joinAtStops (position : Nat) : List (List Char) → List Char
  | [] => []
  | [part] => part
  | part :: rest =>
      let next := position + cellCount part + 1
      let fill := (tabSize - next % tabSize) % tabSize
      part ++ ' ' :: List.replicate fill ' ' ++ joinAtStops (next + fill) rest

/-- Replaces tabs by blanks. -/
def expandTabs (line : List Char) : List Char := joinAtStops 0 (splitTabs line)

/-! ## Words -/

/-- Cuts a line before every character that follows a blank and is none. -/
def cutAfterBlanks : List Char → List (List Char)
  | [] => [[]]
  | [c] => [[c]]
  | c :: d :: rest =>
      match cutAfterBlanks (d :: rest) with
      | word :: words =>
          if Text.isBlank c && !Text.isBlank d then [c] :: word :: words else (c :: word) :: words
      | [] => [[c]]

/-- The words of a line with the blanks around them; blanks at the front belong to the first word,
and a line of blanks has no words. -/
def words (line : List Char) : List (List Char) :=
  match cutAfterBlanks line with
  | first :: second :: rest =>
      if first.all Text.isBlank then (first ++ second) :: rest else first :: second :: rest
  | [word] => if word.all Text.isBlank then [] else [word]
  | [] => []

/-! ## Filling lines -/

/-- Lines that are being filled: the full ones, the latest first, and the one under way with the
cells that are taken on it. -/
structure Filling where
  full : List (List Char) := []
  line : List Char := []
  used : Nat := 0
  deriving Repr

namespace Filling

/-- Begins a line, unless nothing has been written at all. -/
def newLine (f : Filling) : Filling :=
  if f.full.isEmpty && f.line.isEmpty then f else { full := f.line :: f.full, line := [], used := 0 }

/-- Writes on the line under way. -/
def write (f : Filling) (cs : List Char) : Filling :=
  { f with line := f.line ++ cs, used := f.used + cellCount cs }

/-- Writes a piece on a line of its own. -/
def writeAlone (f : Filling) (cs : List Char) : Filling :=
  let f := f.newLine
  { f with line := f.line ++ cs, used := cellCount cs }

/-- Writes a word where it fits. -/
def addWord (overflow : Overflow) (width : Nat) (f : Filling) (word : List Char) : Filling :=
  let size := cellCount (Text.trimEnd word)
  if f.used + size ≤ width then f.write word
  else if size ≤ width then f.newLine.write word
  else
    match overflow with
    | .fold => (chop width word).foldl writeAlone f
    | .ellipsis => f.writeAlone word

/-- The lines, in order. -/
def lines (f : Filling) : List (List Char) := (f.line :: f.full).reverse

end Filling

/-- Distributes a line without line feeds over lines. -/
def fillLines (overflow : Overflow) (width : Nat) (line : List Char) : List (List Char) :=
  match words line with
  | [] => [line]
  | words => (words.foldl (Filling.addWord overflow width) {}).lines

/-- Takes blanks away from the end of a line that has too many characters. -/
def dropExcessBlanks (width : Nat) (line : List Char) : List Char :=
  let blanks := (line.reverse.takeWhile Text.isBlank).length
  line.take (line.length - min blanks (line.length - width))

/-- The character for what has been cut off. -/
def ellipsis : Char := '…'

/-- Cuts a line that takes too many cells. -/
def cutLine (overflow : Overflow) (width : Nat) (line : List Char) : List Char :=
  if cellCount line ≤ width then line
  else
    match overflow with
    | .fold => fitCells width line
    | .ellipsis => fitCells (width - 1) line ++ [ellipsis]

/-- The lines of a text in a width. -/
def wrap (overflow : Overflow) (width : Nat) (text : List Char) : List (List Char) :=
  (splitLines text).flatMap fun line =>
    (fillLines overflow width (expandTabs line)).map fun line =>
      cutLine overflow width (dropExcessBlanks width line)

/-- Puts a line in the middle of a width. -/
def centre (width : Nat) (line : List Char) : List Char :=
  let line := cutLine .fold width (Text.trimEnd line)
  fitCells width (List.replicate ((width - cellCount line) / 2) ' ' ++ line)

/-! ## Printing -/

/-- Lines as a text, each with a line feed. -/
def printedLines (lines : List (List Char)) : String :=
  String.ofList (lines.flatMap (· ++ ['\n']))

/-- A text as it is printed on a terminal of a width. -/
def printed (width : Nat) (text : List Char) : String := printedLines (wrap .fold width text)

/-- A text as it is printed when its lines are left to the terminal. -/
def printedUnwrapped (text : List Char) : String :=
  printedLines ((splitLines text).map expandTabs)

end DevMachines.Terminal
