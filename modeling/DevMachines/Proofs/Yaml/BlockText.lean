import DevMachines.Proofs.Results
import DevMachines.Proofs.Yaml.QuotedText

/-!
# Blocks of lines read back

A literal block is its indicator and, on lines of their own, rows that are all indented alike.  The first
row fixes the indentation of the block, and the first line that is indented less ends it.  The reader
goes on up to what stands on that line, and the text keeps one line break at its end.

Main statement: `blockScalar_rows`.
-/

namespace DevMachines.Yaml

variable {indent n k fuel : Nat} {c : Cursor} {rest more : List Char} {row : List Char}
  {rows : List (List Char)}

/-! ## Rows -/

/-- A row of a block is a word. -/
def IsRow (row : List Char) : Prop := row ≠ [] ∧ ∀ ch ∈ row, IsWordChar ch

/-- The text of rows, each closed by a line feed. -/
def rowsText (rows : List (List Char)) : List Char := rows.flatMap (· ++ ['\n'])

/-- Indented rows, each on a line below. -/
def rowsBelow (indent : Nat) (rows : List (List Char)) : List Char :=
  rows.flatMap fun row => '\n' :: (List.replicate indent ' ' ++ row)

theorem length_le_rowsBelow (indent : Nat) (rows : List (List Char)) :
    rows.length ≤ (rowsBelow indent rows).length := by
  induction rows with
  | nil => exact Nat.le_refl _
  | cons row rows ih =>
    rw [rowsBelow, List.flatMap_cons, List.length_append, ← rowsBelow]
    simp only [List.length_cons]
    omega

theorem rowsBelow_cons (indent : Nat) (row : List Char) (rows : List (List Char)) :
    rowsBelow indent (row :: rows) =
      '\n' :: (List.replicate indent ' ' ++ (row ++ rowsBelow indent rows)) := by
  simp [rowsBelow]

theorem onPage_rowsBelow (h : ∀ row ∈ rows, IsRow row) : ∀ ch ∈ rowsBelow indent rows, OnPage ch := by
  simp only [rowsBelow, List.mem_flatMap, List.mem_cons, List.mem_append]
  rintro ch ⟨row, hrow, rfl | hch | hch⟩
  · exact .inl rfl
  · exact onPage_of_mem_replicate hch
  · exact .inr ((h row hrow).2 ch hch).1

/-- What a line of a block, or the line behind it, begins with. -/
structure BeginsLine (cs : List Char) : Prop where
  not_blank : cs.headD endMark ≠ ' '
  not_break : isBreak (cs.headD endMark) = false

theorem IsRow.beginsLine (h : IsRow row) (rest : List Char) : BeginsLine (row ++ rest) := by
  obtain ⟨ch, row, rfl⟩ := List.exists_cons_of_ne_nil h.1
  have hword := h.2 ch (List.mem_cons_self ..)
  exact ⟨hword.2, hword.1.not_isBreak⟩

/-! ## Indentation -/

theorem here_skip_blanks (h : c.rest = List.replicate n ' ' ++ rest) :
    (c.skip n).here = rest.headD endMark := by
  rw [Cursor.skip_blanks h]
  rfl

theorem next_of_blanks (h : c.rest = List.replicate (n + 1) ' ' ++ rest) :
    c.here = ' ' ∧ c.next.rest = List.replicate n ' ' ++ rest ∧ c.next.column = c.column + 1 := by
  rw [List.replicate_succ, List.cons_append] at h
  have hnext := Cursor.next_of_takesColumn h takesColumn_blank
  exact ⟨Cursor.here_eq h, by rw [hnext], by rw [hnext]⟩

/-- The widest of the leading blanks is the indentation of the first row. -/
theorem leadingBreaks_blanks (h : c.rest = List.replicate n ' ' ++ rest) (hrest : BeginsLine rest)
    (hfuel : n < fuel) : leadingBreaks fuel c.column c = ([], c.column + n, c.skip n) := by
  induction n generalizing fuel c with
  | zero =>
    obtain ⟨fuel, rfl⟩ : ∃ k, fuel = k + 1 := ⟨fuel - 1, by omega⟩
    have hhere : c.here = rest.headD endMark := here_skip_blanks h
    rw [leadingBreaks, hhere, if_neg (by simpa using hrest.not_blank),
      Cursor.lineBreak_eq_none (by rw [hhere]; exact hrest.not_break)]
    rfl
  | succ n ih =>
    obtain ⟨fuel, rfl⟩ : ∃ k, fuel = k + 1 := ⟨fuel - 1, by omega⟩
    obtain ⟨hhere, hnext, hcolumn⟩ := next_of_blanks h
    have hmax : max c.column c.next.column = c.next.column := by omega
    rw [leadingBreaks, hhere, beq_self_eq_true, if_pos rfl, hmax, ih hnext (by omega), Cursor.skip_succ,
      hcolumn, Nat.add_right_comm, Nat.add_assoc]

/-- Blanks are skipped up to the indentation of the block. -/
theorem skipIndentation_blanks (h : c.rest = List.replicate n ' ' ++ rest)
    (hcolumn : c.column + n ≤ indent) (hrest : rest.headD endMark ≠ ' ') (hfuel : n < fuel) :
    skipIndentation indent fuel c = c.skip n := by
  induction n generalizing fuel c with
  | zero =>
    obtain ⟨fuel, rfl⟩ : ∃ k, fuel = k + 1 := ⟨fuel - 1, by omega⟩
    have hhere : c.here = rest.headD endMark := here_skip_blanks h
    have hstop : (c.here == ' ') = false := by simpa [hhere] using hrest
    rw [skipIndentation, hstop, Bool.and_false, if_neg Bool.false_ne_true]
    rfl
  | succ n ih =>
    obtain ⟨fuel, rfl⟩ : ∃ k, fuel = k + 1 := ⟨fuel - 1, by omega⟩
    obtain ⟨hhere, hnext, hnextColumn⟩ := next_of_blanks h
    have hless : c.column < indent := by omega
    rw [skipIndentation, hhere, if_pos (by simpa using hless), ih hnext (by omega) (by omega),
      Cursor.skip_succ]

theorem innerBreaks_blanks (h : c.rest = List.replicate n ' ' ++ rest)
    (hcolumn : c.column + n ≤ indent) (hrest : BeginsLine rest) :
    innerBreaks indent (fuel + 1) c = ([], c.skip n) := by
  have hskip : skipIndentation indent (c.rest.length + 1) c = c.skip n := by
    refine skipIndentation_blanks h hcolumn hrest.not_blank ?_
    rw [h, List.length_append, List.length_replicate]
    omega
  have hbreak : (c.skip n).lineBreak = none :=
    Cursor.lineBreak_eq_none (by rw [here_skip_blanks h]; exact hrest.not_break)
  rw [innerBreaks]
  simp only [hskip, hbreak]

/-! ## Lines -/

/-- A row is read up to the end of its line, with the indentation of the next line. -/
theorem blockLine_row (hrow : IsRow row) (h : c.rest = row ++ '\n' :: (List.replicate k ' ' ++ more))
    (hk : k ≤ indent) (hmore : BeginsLine more) :
    (c.here != endMark) = true ∧
      c.span (fun ch => !isBreakOrEnd ch) = (row, c.skip row.length) ∧
      (c.skip row.length).lineBreak = some ('\n', c.skip (row.length + 1)) ∧
      innerBreaks indent ((c.skip (row.length + 1)).rest.length + 1) (c.skip (row.length + 1)) =
        ([], c.skip (row.length + (k + 1))) ∧
      (c.skip (row.length + (k + 1))).rest = more ∧ (c.skip (row.length + (k + 1))).column = k := by
  have hend : (c.skip row.length).rest = '\n' :: (List.replicate k ' ' ++ more) :=
    Cursor.rest_skip_length h
  have hnext := Cursor.next_of_newline hend
  have hskip := Cursor.skip_newline hend
  have hspan : c.span (fun ch => !isBreakOrEnd ch) = (row, c.skip row.length) :=
    Cursor.span_eq h (fun ch hch => by simp [(hrow.2 ch hch).1.not_isBreakOrEnd]) (.inr rfl)
  refine ⟨?_, hspan, ?_, ?_, ?_, ?_⟩
  · obtain ⟨ch, others, rfl⟩ := List.exists_cons_of_ne_nil hrow.1
    rw [Cursor.here_eq h, bne_iff_ne]
    exact (hrow.2 ch (List.mem_cons_self ..)).1.ne_endMark
  · rw [Cursor.lineBreak_of_newline hend, Cursor.skip_add]
    rfl
  · have hblanks : (c.skip row.length).next.rest = List.replicate k ' ' ++ more := by rw [hnext]
    have hcolumn : (c.skip row.length).next.column = 0 := by rw [hnext]
    have hinner : innerBreaks indent ((c.skip row.length).next.rest.length + 1) _ = _ :=
      innerBreaks_blanks hblanks (by omega) hmore
    rw [Cursor.skip_add, Cursor.skip_add row.length (k + 1)]
    exact hinner
  · rw [Cursor.skip_add, hskip]
  · rw [Cursor.skip_add, hskip]

/-- The rows of a block are its lines. -/
theorem blockLines_rows (hrow : IsRow row) (hrows : ∀ row ∈ rows, IsRow row)
    (h : c.rest = row ++ (rowsBelow indent rows ++ '\n' :: (List.replicate k ' ' ++ more)))
    (hcolumn : c.column = indent) (hk : k < indent) (hmore : BeginsLine more)
    (hfuel : rows.length < fuel) :
    blockLines false indent .clip fuel [] c =
      (rowsText (row :: rows), c.skip (row.length + (rowsBelow indent rows).length + (k + 1))) := by
  induction rows generalizing row c fuel with
  | nil =>
    obtain ⟨fuel, rfl⟩ : ∃ k, fuel = k + 1 := ⟨fuel - 1, by omega⟩
    obtain ⟨hhere, hspan, hbreak, hinner, -, hlast⟩ := blockLine_row hrow h (Nat.le_of_lt hk) hmore
    have hless : (k == indent) = false := by
      rw [beq_eq_false_iff_ne]
      omega
    rw [blockLines]
    simp only [hcolumn, beq_self_eq_true, hhere, Bool.true_and, ↓reduceIte, hspan, hbreak, hinner, hlast,
      hless, Bool.false_and, Bool.false_eq_true]
    simp [rowsText, chomp, rowsBelow]
  | cons next rows ih =>
    obtain ⟨fuel, rfl⟩ : ∃ k, fuel = k + 1 := ⟨fuel - 1, by omega⟩
    rw [List.forall_mem_cons] at hrows
    rw [rowsBelow_cons] at h
    have hline : c.rest = row ++ '\n' :: (List.replicate indent ' ' ++
        (next ++ (rowsBelow indent rows ++ '\n' :: (List.replicate k ' ' ++ more)))) := by
      rw [h]
      simp
    obtain ⟨hhere, hspan, hbreak, hinner, hrest, hnext⟩ :=
      blockLine_row hrow hline (Nat.le_refl _) (hrows.1.beginsLine _)
    have hmoreHere : ((c.skip (row.length + (indent + 1))).here != endMark) = true := by
      obtain ⟨ch, others, heq⟩ := List.exists_cons_of_ne_nil hrows.1.1
      rw [heq] at hrest
      rw [Cursor.here_eq hrest, bne_iff_ne]
      exact (hrows.1.2 ch (by rw [heq]; exact List.mem_cons_self ..)).1.ne_endMark
    have hfewer : rows.length < fuel := by
      rw [List.length_cons] at hfuel
      omega
    have hothers := ih hrows.1 hrows.2 hrest hnext hfewer
    rw [blockLines]
    simp only [hcolumn, beq_self_eq_true, hhere, Bool.true_and, ↓reduceIte, hspan, hbreak, hinner, hnext,
      hmoreHere, hothers, Bool.false_and, Bool.false_eq_true, Prod.mk.injEq]
    refine ⟨by simp [rowsText], ?_⟩
    rw [← Cursor.skip_add, rowsBelow_cons]
    congr 1
    simp only [List.length_cons, List.length_append, List.length_replicate]
    omega

/-- **A block of rows reads back**, up to what stands on the line behind it. -/
theorem blockScalar_rows {limit : Int} (hsome : rows ≠ []) (hrows : ∀ row ∈ rows, IsRow row)
    (h : c.rest = rowsBelow indent rows ++ '\n' :: (List.replicate k ' ' ++ more))
    (hlimit : limit < indent) (hk : k < indent) (hmore : BeginsLine more) :
    blockScalar false limit c =
      .ok (rowsText rows, c.skip ((rowsBelow indent rows).length + (k + 1))) := by
  obtain ⟨row, rows, rfl⟩ := List.exists_cons_of_ne_nil hsome
  rw [List.forall_mem_cons] at hrows
  rw [rowsBelow_cons] at h ⊢
  have hline : c.rest = '\n' :: (List.replicate indent ' ' ++
      (row ++ (rowsBelow indent rows ++ '\n' :: (List.replicate k ' ' ++ more)))) := by
    rw [h]
    simp
  have hheader : blockHeader c = .ok ((.clip, none), c) := by
    have hchomping : chompingOf '\n' = none := rfl
    have hdigit : digitValue? '\n' = none := rfl
    rw [blockHeader]
    simp only [Cursor.here_eq hline, hchomping, hdigit, ok_bind]
    rfl
  have hend : endOfLine c = .ok c.next := by
    have hblanks : c.skipWhile (· == ' ') = c.skip 0 :=
      Cursor.skipWhile_blanks (n := 0) hline (by simp)
    rw [endOfLine, hblanks, Cursor.skip_zero]
    simp only [Cursor.here_eq hline]
    rw [if_neg (by decide), Cursor.lineBreak_of_newline hline]
  have hnext := Cursor.next_of_newline hline
  have hbelow : c.next.rest = List.replicate indent ' ' ++
      (row ++ (rowsBelow indent rows ++ '\n' :: (List.replicate k ' ' ++ more))) := by rw [hnext]
  have hbegins := hrows.1.beginsLine (rowsBelow indent rows ++ '\n' :: (List.replicate k ' ' ++ more))
  have hleading : leadingBreaks (c.next.rest.length + 1) 0 c.next = ([], indent, c.next.skip indent) := by
    have hcolumn : c.next.column = 0 := by rw [hnext]
    have henough : indent < c.next.rest.length + 1 := by
      rw [hbelow, List.length_append, List.length_replicate]
      omega
    have hread := leadingBreaks_blanks hbelow hbegins henough
    rwa [hcolumn, Nat.zero_add] at hread
  have hwidth : max (max (limit + 1) 1).toNat indent = indent := by omega
  have hfirst := Cursor.skip_newline hline
  rw [Cursor.skip_succ] at hfirst
  have hrest : (c.next.skip indent).rest =
      row ++ (rowsBelow indent rows ++ '\n' :: (List.replicate k ' ' ++ more)) := by rw [hfirst]
  have henough : rows.length < (c.next.skip indent).rest.length + 1 := by
    have hlength := length_le_rowsBelow indent rows
    simp only [hrest, List.length_append]
    omega
  have hread := blockLines_rows hrows.1 hrows.2 hrest (by rw [hfirst]) hk hmore henough
  rw [blockScalar, hheader, ok_bind]
  dsimp only
  rw [hend, ok_bind]
  simp only [hleading, hwidth, hread]
  rw [← Cursor.skip_succ, ← Cursor.skip_add]
  have hlength : ('\n' :: (List.replicate indent ' ' ++ (row ++ rowsBelow indent rows))).length +
      (k + 1) = indent + 1 + (row.length + (rowsBelow indent rows).length + (k + 1)) := by
    simp only [List.length_cons, List.length_append, List.length_replicate]
    omega
  rw [hlength]
  rfl

end DevMachines.Yaml
