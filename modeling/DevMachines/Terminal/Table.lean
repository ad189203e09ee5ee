import DevMachines.Number.Rounding
import DevMachines.Terminal.Wrap

/-!
# Tables

A table has a title, a header for every column, and rows of cells.  A column is as wide as its
widest line and a blank on either side.  If the terminal is too narrow for that, the widest columns
are made narrower until the table fits: all columns of the greatest width shrink together, first to
the next smaller width and then on with the columns that have it.  Cells are laid out on lines in
what their column has, and a word that is too long is cut.
-/

namespace DevMachines.Terminal

/-- A table of texts. -/
structure Table where
  title : String
  headers : List (List Char)
  rows : List (List (List Char))

/-! ## Widths -/

/-- Characters that end a line when a text is measured. -/
def endsLine (c : Char) : Bool :=
  let n := c.toNat
  (0x0a ≤ n && n ≤ 0x0d) || (0x1c ≤ n && n ≤ 0x1e) || n == 0x85 || n == 0x2028 || n == 0x2029

/-- The parts of a text between characters that end lines. -/
def measuredLines : List Char → List (List Char)
  | [] => [[]]
  | c :: rest =>
      match measuredLines rest with
      | line :: lines => if endsLine c then [] :: line :: lines else (c :: line) :: lines
      | [] => [[c]]

/-- The greatest of numbers, or zero. -/
def greatest (ns : List Nat) : Nat := ns.foldl max 0

/-- The sum of numbers. -/
def total (ns : List Nat) : Nat := ns.foldr Nat.add 0

/-- The cells of the longest line of a text. -/
def textWidth (text : List Char) : Nat := greatest ((measuredLines text).map cellCount)

/-- The cells beside the text of a cell. -/
def cellPadding : Nat := 2

/-- The width that a column would like to have when all columns together have `room`. -/
def naturalWidth (room : Nat) (texts : List (List Char)) : Nat :=
  if room ≤ cellPadding then max 1 room
  else min (greatest (texts.map textWidth) + cellPadding) room

/-- Takes `excess` from the columns of width `widest`, as evenly as whole numbers allow, but at most
`most` from each; `count` of them are still to come. -/
def takeEvenly (widest most : Nat) : Nat → Nat → List Nat → List Nat
  | _, _, [] => []
  | excess, count, width :: rest =>
      if width = widest ∧ count ≠ 0 then
        let share := min most (nearestEven excess count)
        (width - share) :: takeEvenly widest most (excess - share) (count - 1) rest
      else width :: takeEvenly widest most excess count rest

/-- Makes the widest columns narrower, until all columns together fit into `room`. -/
def shrink (room : Nat) : Nat → List Nat → List Nat
  | 0, widths => widths
  | fuel + 1, widths =>
      if total widths ≤ room then widths
      else
        let widest := greatest widths
        let next := greatest (widths.filter (· != widest))
        let excess := total widths - room
        shrink room fuel
          (takeEvenly widest (min excess (widest - next)) excess (widths.count widest) widths)

/-- The widths of columns with the given texts when all columns together have `room`. -/
def columnWidths (room : Nat) (columns : List (List (List Char))) : List Nat :=
  let widths := columns.map (naturalWidth room)
  shrink room (total widths + 1) widths

namespace Table

/-- The texts of the columns, header first. -/
def columns (t : Table) : List (List (List Char)) :=
  t.headers.zipIdx.map fun (header, i) => header :: t.rows.map fun row => row.getD i []

/-- The cells that the edges and dividers of a table take. -/
def edgeWidth (t : Table) : Nat := t.headers.length + 1

/-- The widths of the columns on a terminal. -/
def widths (t : Table) (width : Nat) : List Nat := columnWidths (width - t.edgeWidth) t.columns

end Table

/-! ## Drawing -/

/-- The characters of an edge or of a divider: at the left, along a column, between two columns, and
at the right. -/
structure Rule where
  left : Char
  along : Char
  between : Char
  right : Char

/-- A rule over columns. -/
def Rule.draw (r : Rule) (widths : List Nat) : List Char :=
  r.left :: List.intercalate [r.between] (widths.map fun w => List.replicate w r.along) ++ [r.right]

/-- The edge above the headers. -/
def topRule : Rule := ⟨'┏', '━', '┳', '┓'⟩

/-- The divider below the headers. -/
def headRule : Rule := ⟨'┡', '━', '╇', '┩'⟩

/-- The edge below the rows. -/
def bottomRule : Rule := ⟨'└', '─', '┴', '┘'⟩

/-- The lines of a text in a column, each as wide as the column. -/
def cellLines (width : Nat) (text : List Char) : List (List Char) :=
  if width ≤ cellPadding then []
  else (wrap .ellipsis (width - cellPadding) text).map fun line =>
    ' ' :: fitCells (width - cellPadding) line ++ [' ']

/-- Lines of a column filled up to a height, at the bottom or at the top. -/
def fillHeight (atTop : Bool) (height width : Nat) (lines : List (List Char)) : List (List Char) :=
  let blank := List.replicate (height - lines.length) (List.replicate width ' ')
  if atTop then blank ++ lines else lines ++ blank

/-- The lines of a row; `bar` stands between the columns and at the edges. -/
def rowLines (bar : Char) (isHeader : Bool) (widths : List Nat) (texts : List (List Char)) :
    List (List Char) :=
  let cells := (widths.zip texts).map fun (w, text) => (w, cellLines w text)
  let height := max 1 (greatest (cells.map (·.2.length)))
  let filled := cells.map fun (w, lines) => fillHeight isHeader height w lines
  (List.range height).map fun i =>
    bar :: List.intercalate [bar] (filled.map fun lines => lines.getD i []) ++ [bar]

/-- A line on a terminal that is too narrow for it. -/
def cropLine (width : Nat) (line : List Char) : List Char :=
  if cellCount line ≤ width then line else fitCells width line

/-- A table as it is printed on a terminal of a width. -/
def Table.print (t : Table) (width : Nat) : String :=
  let widths := t.widths width
  let tableWidth := total widths + t.edgeWidth
  let title := (wrap .fold tableWidth t.title.toList).map (centre tableWidth)
  printedLines <| (title ++ [topRule.draw widths] ++
    rowLines '┃' true widths t.headers ++ [headRule.draw widths] ++
    t.rows.flatMap (rowLines '│' false widths) ++ [bottomRule.draw widths]).map (cropLine width)

end DevMachines.Terminal
