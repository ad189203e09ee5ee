import DevMachines.Proofs.Terminal.Fitting
import Mathlib.Data.List.GetD

/-!
# Tables that have room

A table on a terminal that is wide enough is drawn without changing anything in it: every column is as
wide as its widest line and a blank on either side, every line of a cell is on a line of its own, and
nothing is cut off.

A `Sheet` is such a table with its cells line by line, and `Sheet.drawing` draws it, with none of the
decisions that a narrow terminal makes necessary.  The main statement is `Sheet.print_table`: on a
terminal that is not narrower than the sheet, the table is printed as it is drawn.
-/

namespace DevMachines
namespace Terminal

/-! ## Greatest numbers and sums -/

section Numbers

variable {n : Nat} {ns : List Nat}

theorem foldl_max_eq (n : Nat) (ns : List Nat) : ns.foldl max n = max n (greatest ns) := by
  induction ns generalizing n with
  | nil => exact (Nat.max_zero n).symm
  | cons m ns ih =>
    rw [greatest, List.foldl_cons, List.foldl_cons, ih, ih, Nat.zero_max, Nat.max_assoc]

theorem greatest_cons (n : Nat) (ns : List Nat) : greatest (n :: ns) = max n (greatest ns) := by
  rw [greatest, List.foldl_cons, Nat.zero_max, foldl_max_eq]

theorem le_greatest (h : n ∈ ns) : n ≤ greatest ns := by
  induction ns with
  | nil => cases h
  | cons m ns ih =>
    rw [greatest_cons]
    rcases List.mem_cons.mp h with rfl | h
    · exact Nat.le_max_left _ _
    · exact (ih h).trans (Nat.le_max_right _ _)

theorem greatest_le (h : ∀ m ∈ ns, m ≤ n) : greatest ns ≤ n := by
  induction ns with
  | nil => exact Nat.zero_le n
  | cons m ns ih =>
    rw [List.forall_mem_cons] at h
    rw [greatest_cons]
    exact Nat.max_le.mpr ⟨h.1, ih h.2⟩

theorem total_cons (n : Nat) (ns : List Nat) : total (n :: ns) = n + total ns := rfl

theorem le_total (h : n ∈ ns) : n ≤ total ns := by
  induction ns with
  | nil => cases h
  | cons m ns ih =>
    rw [total_cons]
    rcases List.mem_cons.mp h with rfl | h
    · exact Nat.le_add_right _ _
    · exact (ih h).trans (Nat.le_add_left _ _)

end Numbers

/-! ## Sheets -/

/-- A table whose cells are given line by line. -/
structure Sheet where
  title : String
  headers : List (List Char)
  rows : List (List (List (List Char)))

namespace Sheet

/-- The table, with the lines of a cell in one text. -/
def table (s : Sheet) : Table where
  title := s.title
  headers := s.headers
  rows := s.rows.map fun row => row.map (List.intercalate ['\n'])

/-- The cells of the widest line of a column, header or not. -/
def lineWidth (s : Sheet) (header : List Char) (column : Nat) : Nat :=
  greatest (cellCount header :: s.rows.map fun row =>
    greatest ((row.getD column []).map cellCount))

/-- The widths of the columns, with a blank on either side of the lines. -/
def widths (s : Sheet) : List Nat :=
  s.headers.zipIdx.map fun (header, i) => s.lineWidth header i + cellPadding

/-- The width of the sheet, with its edges. -/
def width (s : Sheet) : Nat := total s.widths + (s.headers.length + 1)

/-- A line in a column. -/
def slot (width : Nat) (line : List Char) : List Char :=
  ' ' :: (line ++ List.replicate (width - cellPadding - cellCount line) ' ') ++ [' ']

/-- What stands in a column on a line of its row: the line of the cell, or a blank. -/
def slotAt (width : Nat) (cell : List (List Char)) (i : Nat) : List Char :=
  (cell.map (slot width)).getD i (List.replicate width ' ')

/-- The lines of a row of columns, as many as its longest cell has. -/
def rowDrawing (bar : Char) (columns : List (Nat × List (List Char))) : List (List Char) :=
  (List.range (greatest (columns.map (·.2.length)))).map fun i =>
    bar :: List.intercalate [bar] (columns.map fun (w, cell) => slotAt w cell i) ++ [bar]

/-- The title in the middle of a width. -/
def titleDrawing (width : Nat) (title : List Char) : List Char :=
  let before := (width - cellCount title) / 2
  List.replicate before ' ' ++ title ++
    List.replicate (width - cellCount (List.replicate before ' ' ++ title)) ' '

/-- The lines of the sheet. -/
def lines (s : Sheet) : List (List Char) :=
  [titleDrawing s.width s.title.toList, topRule.draw s.widths] ++
    rowDrawing '┃' (s.widths.zip (s.headers.map fun header => [header])) ++
    [headRule.draw s.widths] ++ s.rows.flatMap (fun row => rowDrawing '│' (s.widths.zip row)) ++
    [bottomRule.draw s.widths]

/-- The sheet as it is printed where there is room for it. -/
def drawing (s : Sheet) : String := printedLines s.lines

/-- A sheet that can be drawn: its lines are firm, there is a cell for every column in each row and a
line in each cell, and the title is trimmed and not wider than the rest. -/
structure IsFirm (s : Sheet) : Prop where
  title : Terminal.IsFirm s.title.toList ∧ Text.trimEnd s.title.toList = s.title.toList ∧
    cellCount s.title.toList ≤ s.width
  headers_ne_nil : s.headers ≠ []
  headers : ∀ header ∈ s.headers, Terminal.IsFirm header ∧ 0 < cellCount header
  rows : ∀ row ∈ s.rows, row.length = s.headers.length ∧
    ∀ cell ∈ row, cell ≠ [] ∧ ∀ line ∈ cell, Terminal.IsFirm line

end Sheet

/-! ## Widths -/

section Widths

variable {lines : List (List Char)} {room : Nat} {texts : List (List Char)}

theorem textWidth_intercalate (h : ∀ line ∈ lines, ∀ c ∈ line, IsPlain c) :
    textWidth (List.intercalate ['\n'] lines) = greatest (lines.map cellCount) := by
  cases lines with
  | nil => rfl
  | cons line lines =>
    rw [textWidth, (lines_intercalate (List.cons_ne_nil _ _) h).2]

/-- A column that has the room it would like to have takes it. -/
theorem naturalWidth_of_le (h : greatest (texts.map textWidth) + cellPadding ≤ room) :
    naturalWidth room texts = greatest (texts.map textWidth) + cellPadding := by
  unfold naturalWidth
  split
  · have hpadding : 1 ≤ cellPadding := by decide
    omega
  · exact Nat.min_eq_left h

/-- Columns that fit are not made narrower. -/
theorem columnWidths_of_le {columns : List (List (List Char))}
    (h : total (columns.map fun texts => greatest (texts.map textWidth) + cellPadding) ≤ room) :
    columnWidths room columns =
      columns.map fun texts => greatest (texts.map textWidth) + cellPadding := by
  have hnatural : columns.map (naturalWidth room) =
      columns.map fun texts => greatest (texts.map textWidth) + cellPadding := by
    refine List.map_congr_left fun texts htexts => naturalWidth_of_le ?_
    exact (le_total (List.mem_map_of_mem htexts)).trans h
  unfold columnWidths
  rw [hnatural]
  exact if_pos h

end Widths

namespace Sheet

variable {s : Sheet}

/-- The lines of a cell of a firm sheet, also where there is no cell. -/
theorem IsFirm.line (h : s.IsFirm) {row : List (List (List Char))} (hrow : row ∈ s.rows) (i : Nat) :
    ∀ line ∈ row.getD i [], Terminal.IsFirm line := by
  rw [List.getD_eq_getElem?_getD]
  cases hcell : row[i]? with
  | none => simp
  | some cell => exact ((h.rows row hrow).2 cell (List.mem_of_getElem? hcell)).2

/-- **On a terminal that is not narrower than the sheet the columns have the widths they like.** -/
theorem IsFirm.widths_table (h : s.IsFirm) {width : Nat} (hwidth : s.width ≤ width) :
    s.table.widths width = s.widths := by
  have hcolumns : (s.table.columns.map fun texts =>
      greatest (texts.map textWidth) + cellPadding) = s.widths := by
    rw [Table.columns, List.map_map]
    refine List.map_congr_left fun ⟨header, i⟩ hheader => ?_
    have hfirm := (h.headers header (List.fst_mem_of_mem_zipIdx hheader)).1
    have hwidth : textWidth header = cellCount header := by
      have hline := @textWidth_intercalate [header] (by simpa using hfirm.plain)
      rw [List.intercalate_singleton, List.map_singleton, greatest_cons] at hline
      exact hline.trans (Nat.max_zero _)
    have hcells : (s.table.rows.map fun row => row.getD i []).map textWidth =
        s.rows.map fun row => greatest ((row.getD i []).map cellCount) := by
      rw [table, List.map_map, List.map_map]
      refine List.map_congr_left fun row hrow => ?_
      have hcell : (row.map (List.intercalate ['\n'])).getD i [] =
          List.intercalate ['\n'] (row.getD i []) := List.getD_map row [] _
      rw [Function.comp_apply, Function.comp_apply, hcell]
      exact textWidth_intercalate fun line hline => (h.line hrow i line hline).plain
    rw [Function.comp_apply, List.map_cons, hcells, hwidth]
    rfl
  have hedges : s.table.edgeWidth = s.headers.length + 1 := rfl
  rw [Table.widths, columnWidths_of_le, hcolumns]
  rw [hcolumns, hedges]
  rw [Sheet.width] at hwidth
  omega

/-! ## Rows -/

section Rows

variable {width : Nat} {cell : List (List Char)}

/-- Are the lines of a cell firm, and is there room for them in a column? -/
def CellFits (width : Nat) (cell : List (List Char)) : Prop :=
  cellPadding < width ∧ cell ≠ [] ∧
    ∀ line ∈ cell, Terminal.IsFirm line ∧ cellCount line + cellPadding ≤ width

/-- A cell with room has its lines below each other. -/
theorem cellLines_intercalate (h : CellFits width cell) :
    cellLines width (List.intercalate ['\n'] cell) = cell.map (slot width) := by
  obtain ⟨hwidth, hnil, hlines⟩ := h
  have hfits : ∀ line ∈ cell, cellCount line ≤ width - cellPadding := by
    intro line hline
    have := (hlines line hline).2
    omega
  rw [cellLines, if_neg (Nat.not_le_of_gt hwidth),
    wrap_of_fits hnil (fun line hline => (hlines line hline).1) hfits]
  refine List.map_congr_left fun line hline => ?_
  rw [fitCells, if_pos (hfits line hline)]
  rfl

/-- A cell that is filled up has a blank where it has no line. -/
theorem getD_fillHeight {atTop : Bool} {height i : Nat} (hi : i < height)
    (htop : atTop = true → cell.length = height) :
    (fillHeight atTop height width (cell.map (slot width))).getD i [] = slotAt width cell i := by
  have hbottom : ((cell.map (slot width)) ++ List.replicate (height - (cell.map (slot width)).length)
      (List.replicate width ' ')).getD i [] = slotAt width cell i := by
    rw [slotAt, List.getD_eq_getElem?_getD, List.getD_eq_getElem?_getD, List.getElem?_append]
    split
    · next hlt => rw [List.getElem?_eq_getElem hlt]; rfl
    · next hge =>
      rw [List.getElem?_eq_none (Nat.le_of_not_gt hge), List.getElem?_replicate,
        if_pos (by omega)]
      rfl
  cases atTop with
  | false => exact hbottom
  | true =>
    have hfull : height - (cell.map (slot width)).length = 0 := by
      rw [List.length_map, htop rfl, Nat.sub_self]
    rw [hfull, List.replicate_zero, List.append_nil] at hbottom
    rw [fillHeight, hfull, if_pos rfl]
    exact hbottom

/-- **A row with room is drawn line by line**; a header has one line. -/
theorem rowLines_intercalate {bar : Char} {isHeader : Bool} {widths : List Nat}
    {cells : List (List (List Char))} (hnil : widths.zip cells ≠ [])
    (hfits : ∀ column ∈ widths.zip cells, CellFits column.1 column.2)
    (hheader : isHeader = true → ∀ column ∈ widths.zip cells, column.2.length = 1) :
    rowLines bar isHeader widths (cells.map (List.intercalate ['\n'])) =
      rowDrawing bar (widths.zip cells) := by
  have hdrawn : ∀ f : Nat × List Char → Nat × List (List Char),
      (∀ column, f column = (column.1, cellLines column.1 column.2)) →
      (widths.zip (cells.map (List.intercalate ['\n']))).map f =
        (widths.zip cells).map fun column => (column.1, column.2.map (slot column.1)) := by
    intro f hf
    rw [List.zip_map_right, List.map_map]
    refine List.map_congr_left fun column hcolumn => (hf _).trans ?_
    exact congrArg (Prod.mk column.1) (cellLines_intercalate (hfits column hcolumn))
  unfold rowLines
  rw [hdrawn _ fun _ => rfl]
  generalize widths.zip cells = columns at hnil hfits hheader
  have hlengths : ((columns.map fun column => (column.1, column.2.map (slot column.1))).map
      fun column => column.2.length) = columns.map fun column => column.2.length := by
    simp
  have hlong : ∀ column ∈ columns,
      column.2.length ≤ greatest (columns.map fun column => column.2.length) :=
    fun column hcolumn => le_greatest (List.mem_map_of_mem hcolumn)
  have hheight : max 1 (greatest (columns.map fun column => column.2.length)) =
      greatest (columns.map fun column => column.2.length) := by
    obtain ⟨column, hcolumn⟩ := List.exists_mem_of_ne_nil columns hnil
    have hpos := List.length_pos_of_ne_nil (hfits column hcolumn).2.1
    exact Nat.max_eq_right (hpos.trans_le (hlong column hcolumn))
  dsimp only
  rw [hlengths, hheight, rowDrawing]
  refine List.map_congr_left fun i hi => ?_
  rw [List.map_map, List.map_map]
  refine congrArg (fun slots => bar :: List.intercalate [bar] slots ++ [bar])
    (List.map_congr_left fun column hcolumn => ?_)
  refine getD_fillHeight (List.mem_range.mp hi) fun htop => ?_
  refine Nat.le_antisymm (hlong column hcolumn) (greatest_le fun n hn => ?_)
  obtain ⟨other, hother, rfl⟩ := List.mem_map.mp hn
  rw [hheader htop other hother, hheader htop column hcolumn]

end Rows

/-! ## The cells that are drawn -/

section Cells

variable {width : Nat}

theorem cellCount_blanks (n : Nat) : cellCount (List.replicate n ' ') = n := by
  have hblanks := cellCount_replicate_append isSolid_blank n []
  rwa [List.append_nil] at hblanks

/-- A line takes no more cells in its column than the column has. -/
theorem cellCount_slot_le {line : List Char} (h : cellCount line + cellPadding ≤ width) :
    cellCount (slot width line) ≤ width := by
  have hline := cellCount_append_blanks_le line (width - cellPadding - cellCount line + 1)
  have hpadding : cellPadding = 2 := rfl
  rw [slot, List.cons_append, List.append_assoc, ← List.replicate_succ',
    cellCount_solid isSolid_blank]
  omega

theorem cellCount_slotAt_le {cell : List (List Char)} (h : CellFits width cell) (i : Nat) :
    cellCount (slotAt width cell i) ≤ width := by
  rw [slotAt, List.getD_eq_getElem?_getD, List.getElem?_map]
  cases hline : cell[i]? with
  | none => exact (cellCount_blanks width).le
  | some line => exact cellCount_slot_le (h.2.2 line (List.mem_of_getElem? hline)).2

/-- Columns with bars between them and at the right take the cells of the columns and one for each
bar. -/
theorem cellCount_intercalate_le {α : Type} {between right : Char} (hbetween : IsSolid between)
    (hright : IsSolid right) {columns : List α} {draw : α → List Char} {room : α → Nat}
    (hnil : columns ≠ []) (h : ∀ column ∈ columns, cellCount (draw column) ≤ room column) :
    cellCount (List.intercalate [between] (columns.map draw) ++ [right]) ≤
      total (columns.map room) + columns.length := by
  induction columns with
  | nil => exact absurd rfl hnil
  | cons column columns ih =>
    rw [List.forall_mem_cons] at h
    cases columns with
    | nil =>
      have hle := cellCountFrom_append_solid_le hright none (draw column) []
      have hone : cellCount [right] = 1 := cellCount_solid hright []
      rw [List.map_singleton, List.map_singleton, List.intercalate_singleton, total_cons]
      exact (hle.trans (Nat.add_le_add h.1 hone.le))
    | cons next columns =>
      have hrest := ih (List.cons_ne_nil _ _) h.2
      have hle := cellCountFrom_append_solid_le hbetween none (draw column)
        (List.intercalate [between] ((next :: columns).map draw) ++ [right])
      have hhere := h.1
      rw [cellCount_solid hbetween] at hle
      rw [List.map_cons, List.map_cons, List.intercalate_cons_cons, List.append_assoc,
        List.append_assoc, List.singleton_append, ← List.map_cons, List.map_cons (f := room),
        total_cons, List.length_cons]
      rw [cellCount] at hhere ⊢
      omega

end Cells

/-! ## Printing -/

section Printing

/-- The column at an index has the width of its header's column. -/
theorem mem_zip_widths {cells : List (List (List Char))} {column : Nat × List (List Char)}
    (h : column ∈ s.widths.zip cells) : ∃ i header, s.headers[i]? = some header ∧
      column.1 = s.lineWidth header i + cellPadding ∧ cells[i]? = some column.2 := by
  obtain ⟨i, hi⟩ := List.mem_iff_getElem?.mp h
  obtain ⟨hwidth, hcell⟩ := List.getElem?_zip_eq_some.mp hi
  rw [widths, List.getElem?_map, List.getElem?_zipIdx] at hwidth
  cases hheader : s.headers[i]? with
  | none => rw [hheader] at hwidth; cases hwidth
  | some header =>
    rw [hheader, Nat.zero_add] at hwidth
    exact ⟨i, header, hheader, (Option.some.inj hwidth).symm, hcell⟩

theorem length_widths (s : Sheet) : s.widths.length = s.headers.length := by
  rw [widths, List.length_map, List.length_zipIdx]

theorem IsFirm.cellPadding_lt (h : s.IsFirm) {header : List Char} {i : Nat}
    (hheader : s.headers[i]? = some header) : cellPadding < s.lineWidth header i + cellPadding := by
  have hpos := (h.headers header (List.mem_of_getElem? hheader)).2
  have hle : cellCount header ≤ s.lineWidth header i := le_greatest List.mem_cons_self
  omega

/-- There is room for a header. -/
theorem IsFirm.cellFits_header (h : s.IsFirm) : ∀ column ∈
    s.widths.zip (s.headers.map fun header => [header]), CellFits column.1 column.2 := by
  intro column hcolumn
  obtain ⟨i, header, hheader, hwidth, hcell⟩ := mem_zip_widths hcolumn
  rw [List.getElem?_map, hheader] at hcell
  obtain hcell := Option.some.inj hcell
  have hle : cellCount header ≤ s.lineWidth header i := le_greatest List.mem_cons_self
  rw [hwidth, ← hcell]
  refine ⟨h.cellPadding_lt hheader, List.cons_ne_nil _ _, ?_⟩
  rw [List.forall_mem_singleton]
  exact ⟨(h.headers header (List.mem_of_getElem? hheader)).1, Nat.add_le_add_right hle _⟩

/-- There is room for a row. -/
theorem IsFirm.cellFits_row (h : s.IsFirm) {row : List (List (List Char))} (hrow : row ∈ s.rows) :
    ∀ column ∈ s.widths.zip row, CellFits column.1 column.2 := by
  intro column hcolumn
  obtain ⟨i, header, hheader, hwidth, hcell⟩ := mem_zip_widths hcolumn
  obtain ⟨hnil, hlines⟩ := (h.rows row hrow).2 column.2 (List.mem_of_getElem? hcell)
  rw [hwidth]
  refine ⟨h.cellPadding_lt hheader, hnil, fun line hline => ⟨hlines line hline, ?_⟩⟩
  have hgetD : row.getD i [] = column.2 := by
    rw [List.getD_eq_getElem?_getD, hcell, Option.getD_some]
  have hcolumn : greatest (column.2.map cellCount) ≤ s.lineWidth header i := by
    refine le_greatest (List.mem_cons_of_mem _ (List.mem_map.mpr ⟨row, hrow, ?_⟩))
    rw [hgetD]
  have hle : cellCount line ≤ greatest (column.2.map cellCount) :=
    le_greatest (List.mem_map_of_mem hline)
  exact Nat.add_le_add_right (hle.trans hcolumn) _

theorem IsFirm.zip_ne_nil (h : s.IsFirm) {cells : List (List (List Char))}
    (hlength : cells.length = s.headers.length) : s.widths.zip cells ≠ [] := by
  rw [ne_eq, ← List.length_eq_zero_iff, List.length_zip, length_widths, hlength, Nat.min_self,
    List.length_eq_zero_iff]
  exact h.headers_ne_nil

/-- A row of a firm sheet takes no more cells than the sheet. -/
theorem IsFirm.cellCount_rowDrawing_le (h : s.IsFirm) {bar : Char} (hbar : IsSolid bar)
    {cells : List (List (List Char))} (hlength : cells.length = s.headers.length)
    (hfits : ∀ column ∈ s.widths.zip cells, CellFits column.1 column.2) :
    ∀ line ∈ rowDrawing bar (s.widths.zip cells), cellCount line ≤ s.width := by
  intro line hline
  obtain ⟨i, -, rfl⟩ := List.mem_map.mp hline
  have hzip : (s.widths.zip cells).length = s.headers.length := by
    rw [List.length_zip, length_widths, hlength, Nat.min_self]
  have hwidths : (s.widths.zip cells).map Prod.fst = s.widths :=
    List.map_fst_zip (by rw [length_widths, hlength])
  have hle := @cellCount_intercalate_le _ bar bar hbar hbar _
    (fun (w, cell) => slotAt w cell i) Prod.fst (h.zip_ne_nil hlength)
    fun column hcolumn => cellCount_slotAt_le (hfits column hcolumn) i
  rw [hwidths, hzip] at hle
  rw [List.cons_append, cellCount_solid hbar, Sheet.width]
  exact Nat.add_le_add_right hle 1

/-- A rule takes no more cells than the sheet. -/
theorem IsFirm.cellCount_draw_le (h : s.IsFirm) {r : Rule}
    (hr : IsSolid r.left ∧ IsSolid r.along ∧ IsSolid r.between ∧ IsSolid r.right) :
    cellCount (r.draw s.widths) ≤ s.width := by
  obtain ⟨hleft, hrule, hbetween, hright⟩ := hr
  have halong : ∀ w ∈ s.widths, cellCount (List.replicate w r.along) ≤ w := by
    intro w _
    have hcount := cellCount_replicate_append hrule w []
    rw [List.append_nil] at hcount
    exact hcount.le
  have hnil : s.widths ≠ [] := by
    rw [ne_eq, ← List.length_eq_zero_iff, length_widths, List.length_eq_zero_iff]
    exact h.headers_ne_nil
  have hle := @cellCount_intercalate_le _ r.between r.right hbetween hright
    s.widths (fun w => List.replicate w r.along) id hnil halong
  rw [List.map_id, length_widths] at hle
  rw [Rule.draw, List.cons_append, cellCount_solid hleft, Sheet.width]
  exact Nat.add_le_add_right hle 1

/-- The title with the blanks in front of it fits into a width that the title fits into. -/
theorem cellCount_centred_le {title : List Char} {width : Nat} (h : cellCount title ≤ width) :
    cellCount (List.replicate ((width - cellCount title) / 2) ' ' ++ title) ≤ width := by
  rw [cellCount_replicate_append isSolid_blank]
  omega

theorem IsFirm.cellCount_titleDrawing_le (h : s.IsFirm) :
    cellCount (titleDrawing s.width s.title.toList) ≤ s.width := by
  have hcentred := cellCount_centred_le h.title.2.2
  refine (cellCount_append_blanks_le _ _).trans ?_
  omega

/-- No line of a firm sheet is wider than the sheet. -/
theorem IsFirm.cellCount_line_le (h : s.IsFirm) : ∀ line ∈ s.lines, cellCount line ≤ s.width := by
  intro line hline
  rw [lines] at hline
  simp only [List.mem_append, List.mem_cons, List.not_mem_nil, or_false, List.mem_flatMap] at hline
  rcases hline with ((((rfl | rfl) | hheader) | rfl) | ⟨row, hrow, hline⟩) | rfl
  · exact h.cellCount_titleDrawing_le
  · exact h.cellCount_draw_le (by decide +kernel)
  · exact h.cellCount_rowDrawing_le (by decide +kernel) (List.length_map _) h.cellFits_header line
      hheader
  · exact h.cellCount_draw_le (by decide +kernel)
  · exact h.cellCount_rowDrawing_le (by decide +kernel) (h.rows row hrow).1 (h.cellFits_row hrow)
      line hline
  · exact h.cellCount_draw_le (by decide +kernel)

/-- The title is centred on one line. -/
theorem IsFirm.centred_title (h : s.IsFirm) :
    (wrap .fold s.width s.title.toList).map (centre s.width) =
      [titleDrawing s.width s.title.toList] := by
  obtain ⟨hfirm, htrimmed, hfits⟩ := h.title
  have hwrap := @wrap_of_fits .fold s.width [s.title.toList] (List.cons_ne_nil _ _)
    (by simpa using hfirm) (by simpa using hfits)
  rw [List.intercalate_singleton] at hwrap
  rw [hwrap, List.map_singleton, centre, htrimmed, cutLine.eq_def, if_pos hfits, fitCells,
    if_pos (cellCount_centred_le hfits)]
  rfl

theorem IsFirm.headerLines (h : s.IsFirm) : rowLines '┃' true s.widths s.headers =
    rowDrawing '┃' (s.widths.zip (s.headers.map fun header => [header])) := by
  have hone : ∀ header ∈ s.headers,
      (List.intercalate ['\n'] ∘ fun header => [header]) header = header :=
    fun _ _ => List.intercalate_singleton
  have hheader : ∀ column ∈ s.widths.zip (s.headers.map fun header => [header]),
      column.2.length = 1 := by
    intro column hcolumn
    obtain ⟨i, header, hheader, -, hcell⟩ := mem_zip_widths hcolumn
    rw [List.getElem?_map, hheader] at hcell
    rw [← Option.some.inj hcell]
    rfl
  have hdrawn := @rowLines_intercalate '┃' true s.widths (s.headers.map fun header => [header])
    (h.zip_ne_nil (List.length_map _)) h.cellFits_header fun _ => hheader
  rwa [List.map_map, List.map_congr_left hone, List.map_id'] at hdrawn

theorem IsFirm.bodyLines (h : s.IsFirm) : s.table.rows.flatMap (rowLines '│' false s.widths) =
    s.rows.flatMap fun row => rowDrawing '│' (s.widths.zip row) := by
  rw [table, List.flatMap_map]
  refine List.flatMap_congr fun row hrow => ?_
  exact rowLines_intercalate (h.zip_ne_nil (h.rows row hrow).1) (h.cellFits_row hrow) nofun

/-- **A firm sheet is printed as it is drawn, on a terminal that is not narrower than it.** -/
theorem print_table (h : s.IsFirm) {width : Nat} (hwidth : s.width ≤ width) :
    s.table.print width = s.drawing := by
  have hprint : s.table.print width =
      printedLines (((wrap .fold s.width s.title.toList).map (centre s.width) ++
        [topRule.draw s.widths] ++ rowLines '┃' true s.widths s.headers ++
        [headRule.draw s.widths] ++ s.table.rows.flatMap (rowLines '│' false s.widths) ++
        [bottomRule.draw s.widths]).map (cropLine width)) := by
    unfold Table.print
    rw [h.widths_table hwidth]
    rfl
  have hcropped : ∀ line ∈ s.lines, cropLine width line = line := fun line hline =>
    if_pos ((h.cellCount_line_le line hline).trans hwidth)
  rw [hprint, h.centred_title, h.headerLines, h.bodyLines, List.singleton_append, ← lines,
    List.map_congr_left hcropped, List.map_id']
  rfl

end Printing

end Sheet

end Terminal
end DevMachines
