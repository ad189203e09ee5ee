import DevMachines.Proofs.Yaml.Building

/-!
# How a scalar is spelled

The ink of a scalar writes its marks and its text in the style that is chosen for it, and what it writes
spells the text.  All that depends on where the pen stands is the column at which lines are folded, so
each lemma says which characters are written and where the pen stands behind them.

Main statements: `spells_spelling` and `exists_scalarInk`.

## What is not spelled

Double quotes are the one style that does not hold every text.  Where lines are indented to the width of
the page, an escape is followed by a fold, and a blank behind it by a second one, whose backslash the
first one takes; `FoldsAt` leaves out the texts with such a place.
-/

namespace DevMachines.Yaml

/-! ## Words -/

namespace Ink

theorem append_apply (a b : Ink) (pen : Pen) :
    (a ++ b) pen = ((a pen).1 ++ (b (a pen).2).1, (b (a pen).2).2) := rfl

theorem append_assoc (a b c : Ink) : a ++ b ++ c = a ++ (b ++ c) := by
  funext pen
  simp [append_apply]

theorem append_none (a : Ink) : a ++ none = a := by
  funext pen
  rw [append_apply]
  simp [none]

/-- Ink that writes a word on the line, behind a blank if it needs one. -/
def Writes (ink : Ink) (pen : Pen) (word : List Char) : Prop :=
  (ink pen).1 = (if pen.afterBlank then word else ' ' :: word) ∧
    ∃ column, (ink pen).2 = ⟨column, false, false, pen.written⟩

variable {pen : Pen} {indent : Nat} {split : Bool} {text : List Char}

theorem writes_mark (pen : Pen) (word : List Char) : (mark word true).Writes pen word := by
  refine ⟨?_, _, rfl⟩
  cases hblank : pen.afterBlank <;> simp [mark, hblank]

theorem exists_writes_plain (hsome : text ≠ []) : ∃ column,
    (plain indent split text).Writes pen (plainRun indent split endMark column text).1 := by
  have hempty : text.isEmpty = false := by simpa using hsome
  refine ⟨if pen.afterBlank then pen.column else pen.column + 1, ?_, ?_⟩
  · simp only [plain, hempty, Bool.false_eq_true, ↓reduceIte]
  · simp only [plain, hempty, Bool.false_eq_true, ↓reduceIte]
    exact ⟨_, rfl⟩

/-- Quotes around what depends on the column. -/
theorem exists_writes_quotes (quote : Char) (layout : Nat → List Char × Nat) : ∃ column,
    (mark [quote] true ++ run layout ++ mark [quote] false).Writes pen
      (quote :: ((layout column).1 ++ [quote])) := by
  refine ⟨(mark [quote] true pen).2.column, ?_, ?_⟩
  · cases hblank : pen.afterBlank <;> simp [append_apply, mark, run, hblank]
  · exact ⟨_, by simp [append_apply, mark, run]; rfl⟩

theorem exists_writes_singleQuoted : ∃ column, (singleQuoted indent split text).Writes pen
    ('\'' :: ((singleQuotedRun indent split endMark column text).1 ++ ['\''])) :=
  exists_writes_quotes '\'' fun column => singleQuotedRun indent split endMark column text

theorem exists_writes_doubleQuoted : ∃ column, (doubleQuoted indent split text).Writes pen
    ('"' :: ((doubleQuotedRun indent split true true column text).1 ++ ['"'])) :=
  exists_writes_quotes '"' fun column => doubleQuotedRun indent split true true column text

/-- A literal block of rows, each closed by a line feed. -/
theorem literalRun_rowsText {rows : List (List Char)} (hrows : ∀ row ∈ rows, IsRow row) :
    '\n' :: literalRun indent true (rowsText rows) = rowsBelow indent rows ++ ['\n'] := by
  have hrest : ∀ {row more : List Char}, (∀ c ∈ row, IsWordChar c) →
      literalRun indent false (row ++ '\n' :: more) = row ++ '\n' :: literalRun indent true more := by
    intro row more hrow
    induction row with
    | nil => rfl
    | cons c row ih =>
      rw [List.forall_mem_cons] at hrow
      have hc : (c == '\n') = false := by
        rw [beq_eq_false_iff_ne]
        rintro rfl
        exact absurd hrow.1.1 (by decide)
      rw [List.cons_append, literalRun, hc, ih hrow.2]
      rfl
  induction rows with
  | nil => rfl
  | cons row rows ih =>
    rw [List.forall_mem_cons] at hrows
    obtain ⟨c, row, rfl⟩ := List.exists_cons_of_ne_nil hrows.1.1
    have hword := hrows.1.2
    rw [List.forall_mem_cons] at hword
    have hc : (c == '\n') = false := by
      rw [beq_eq_false_iff_ne]
      rintro rfl
      exact absurd hword.1.1 (by decide)
    have htext : rowsText ((c :: row) :: rows) = c :: (row ++ '\n' :: rowsText rows) := by
      simp [rowsText]
    rw [htext, literalRun, hc, rowsBelow_cons, if_neg Bool.false_ne_true, if_pos rfl, hrest hword.2,
      ih hrows.2]
    simp

/-- A text that begins with no blank, and ends with one line feed behind something, needs no hints. -/
theorem literalHints_eq_nil {text rest : List Char} {c : Char}
    (hfirst : text.head?.any (fun c => c == ' ' || c == '\n') = false) (hc : c ≠ '\n')
    (hlast : text.reverse = '\n' :: c :: rest) : literalHints text = [] := by
  unfold literalHints
  extract_lets leading trailing
  have hleading : leading = [] := by
    simp only [leading]
    cases hhead : text.head? with
    | none => rfl
    | some first =>
      rw [hhead, Option.any_some] at hfirst
      exact if_neg (by rw [hfirst]; exact Bool.false_ne_true)
  have htrailing : trailing = [] := by
    simp only [trailing, hlast]
    split <;> simp_all
  rw [hleading, htrailing, List.append_nil]

/-- A block of rows needs no hints. -/
theorem literalHints_rowsText {rows : List (List Char)} (hsome : rows ≠ [])
    (hrows : ∀ row ∈ rows, IsRow row) : literalHints (rowsText rows) = [] := by
  have hnewline : ∀ {c : Char}, IsWordChar c → c ≠ '\n' := by
    rintro c hc rfl
    exact absurd hc.1 (by decide)
  have hfirst : (rowsText rows).head?.any (fun c => c == ' ' || c == '\n') = false := by
    obtain ⟨row, rows, rfl⟩ := List.exists_cons_of_ne_nil hsome
    have hrow := hrows row (List.mem_cons_self ..)
    obtain ⟨c, row, rfl⟩ := List.exists_cons_of_ne_nil hrow.1
    have hc := hrow.2 c (List.mem_cons_self ..)
    simp [rowsText, hc.2, hnewline hc]
  obtain ⟨rows, row, rfl⟩ := List.eq_nil_or_concat rows |>.resolve_left hsome
  have hrow := hrows row (by simp)
  obtain ⟨row, c, rfl⟩ := List.eq_nil_or_concat row |>.resolve_left hrow.1
  exact literalHints_eq_nil hfirst (hnewline (hrow.2 c (by simp)))
    (show (rowsText _).reverse = '\n' :: c :: (row.reverse ++ (rowsText rows).reverse) by simp [rowsText])

/-- The ink of a literal block of rows. -/
theorem literal_rowsText (indent : Nat) {rows : List (List Char)} (hsome : rows ≠ [])
    (hrows : ∀ row ∈ rows, IsRow row) (hpen : pen.afterBlank = false) :
    literal indent (rowsText rows) pen =
      (' ' :: '|' :: (rowsBelow indent rows ++ ['\n']), ⟨0, true, true, pen.written⟩) := by
  have hlast : (rowsText rows).getLast? = some '\n' := by
    obtain ⟨rows, row, rfl⟩ := List.eq_nil_or_concat rows |>.resolve_left hsome
    simp [rowsText]
  rw [literal, append_apply, literalHints_rowsText hsome hrows]
  simp only [mark, hpen, literalLines, hlast, beq_self_eq_true, ↓reduceIte, ← literalRun_rowsText hrows]
  rfl
/-- How a text is spelled in a style, from a column on. -/
def spelling (style : ScalarStyle) (indent : Nat) (split : Bool) (column : Nat) (text : List Char) :
    List Char :=
  match style with
  | .plain => (plainRun indent split endMark column text).1
  | .singleQuoted => '\'' :: ((singleQuotedRun indent split endMark column text).1 ++ ['\''])
  | .doubleQuoted => '"' :: ((doubleQuotedRun indent split true true column text).1 ++ ['"'])
  | .literal => '|' :: ('\n' :: literalRun indent true text).dropLast

/-- The ink of a text in a style. -/
def body (style : ScalarStyle) (indent : Nat) (split : Bool) (text : List Char) : Ink :=
  match style with
  | .plain => plain indent split text
  | .singleQuoted => singleQuoted indent split text
  | .doubleQuoted => doubleQuoted indent split text
  | .literal => literal indent text

theorem exists_writes_body {style : ScalarStyle} (hstyle : style ≠ .literal)
    (hsome : style = .plain → text ≠ []) (pen : Pen) : ∃ column,
    (body style indent split text).Writes pen (spelling style indent split column text) := by
  cases style with
  | plain => exact exists_writes_plain (hsome rfl)
  | singleQuoted => exact exists_writes_singleQuoted
  | doubleQuoted => exact exists_writes_doubleQuoted
  | literal => exact absurd rfl hstyle

/-! ### Keys -/

/-- Without folds a plain text stands for itself. -/
theorem plainRun_flat (before : Char) (column : Nat) (text : List Char) :
    (plainRun indent false before column text).1 = text := by
  induction text generalizing before column with
  | nil => rfl
  | cons c text ih =>
    by_cases hc : c = ' '
    · simp [plainRun, hc, foldedBlank, ih]
    · simp [plainRun, hc, ih]

/-- Without folds and line breaks the inside of single quotes is the text with its quotes doubled. -/
theorem singleQuotedRun_flat (before : Char) (column : Nat) {text : List Char}
    (h : ∀ c ∈ text, c ≠ '\n') :
    (singleQuotedRun indent false before column text).1 = text.flatMap doubledQuote := by
  induction text generalizing before column with
  | nil => rfl
  | cons c text ih =>
    simp only [List.forall_mem_cons] at h
    by_cases hc : c = ' '
    · simp [singleQuotedRun, hc, foldedBlank, ih _ _ h.2, doubledQuote]
    · simp [singleQuotedRun, hc, h.1, ih _ _ h.2, doubledQuote]

/-- Without folds the inside of double quotes is the text with its hidden characters escaped. -/
theorem doubleQuotedRun_flat (isFirst afterEscape : Bool) (column : Nat) (text : List Char) :
    (doubleQuotedRun indent false isFirst afterEscape column text).1 =
      text.flatMap fun c => if isVisible c then [c] else escape c := by
  induction text generalizing isFirst afterEscape column with
  | nil => rfl
  | cons c text ih => cases hc : isVisible c <;> simp [doubleQuotedRun, hc, ih]

theorem newline_not_mem_spelling {style : ScalarStyle} (hstyle : style ≠ .literal) {column : Nat}
    (h : ∀ c ∈ text, c ≠ '\n') :
    ∀ c ∈ spelling style indent false column text, c ≠ '\n' := by
  cases style with
  | plain => simpa only [spelling, plainRun_flat] using h
  | singleQuoted =>
    simp only [spelling, singleQuotedRun_flat _ _ h, List.forall_mem_cons, List.forall_mem_append,
      List.mem_flatMap]
    refine ⟨by decide, ?_, by decide, fun _ => (absurd · List.not_mem_nil)⟩
    rintro d ⟨c, hc, hd⟩
    unfold doubledQuote at hd
    split at hd
    · rintro rfl
      exact absurd hd (by decide)
    · rw [List.mem_singleton] at hd
      exact hd ▸ h c hc
  | doubleQuoted =>
    simp only [spelling, doubleQuotedRun_flat, List.forall_mem_cons, List.forall_mem_append,
      List.mem_flatMap]
    refine ⟨by decide, ?_, by decide, fun _ => (absurd · List.not_mem_nil)⟩
    rintro d ⟨c, hc, hd⟩
    split at hd
    · rw [List.mem_singleton] at hd
      exact hd ▸ h c hc
    · obtain ⟨name, hescape, -, hname⟩ := exists_escape c
      rw [hescape, List.mem_cons] at hd
      rcases hd with rfl | hd
      · decide
      · rintro rfl
        exact absurd (hname _ hd) (by decide)
  | literal => exact absurd rfl hstyle

/-- The characters of a text in double quotes on one line. -/
def shown (text : List Char) : List Char := text.flatMap fun c => if isVisible c then [c] else escape c

/-- On one line a text is as long as its double quotes make it, or twice its own length. -/
theorem length_spelling_le {style : ScalarStyle} (hstyle : style ≠ .literal) (indent column : Nat)
    (h : ∀ c ∈ text, c ≠ '\n') :
    (spelling style indent false column text).length ≤ max (2 * text.length) (shown text).length + 2 := by
  cases style with
  | plain =>
    rw [spelling, plainRun_flat]
    omega
  | singleQuoted =>
    have hdoubled : ∀ text : List Char, (text.flatMap doubledQuote).length ≤ 2 * text.length := by
      intro text
      induction text with
      | nil => exact Nat.le_refl _
      | cons c text ih =>
        have hc : (doubledQuote c).length ≤ 2 := by
          unfold doubledQuote
          split
          · exact Nat.le_refl 2
          · exact Nat.le_succ 1
        rw [List.flatMap_cons, List.length_append, List.length_cons]
        omega
    have hlength := hdoubled text
    rw [spelling, singleQuotedRun_flat _ _ h]
    simp only [List.length_cons, List.length_append, List.length_nil]
    omega
  | doubleQuoted =>
    rw [spelling, doubleQuotedRun_flat]
    simp only [shown, List.length_cons, List.length_append, List.length_nil]
    omega
  | literal => exact absurd rfl hstyle

end Ink

/-! ## Texts that can be spelled -/

/-- Is a text one that double quotes hold, if it needs them, where lines are indented? -/
def FoldsAt (indent : Nat) (text : List Char) : Prop :=
  indent < Ink.bestWidth ∨ Ink.KeepsBlanks text.tail

/-- What is asked of a scalar for its text to be spelled: a plain one is not empty, a literal block is
one of rows, and lines may be folded in double quotes. -/
structure IsSpellable (tag text : String) (asLines simpleKey : Bool) (indent : Nat) : Prop where
  nonempty : tag = impliedTag text → text.toList ≠ []
  rows : styleOf tag text asLines simpleKey = .literal →
    ∃ rows, rows ≠ [] ∧ (∀ row ∈ rows, IsRow row) ∧ text.toList = rowsText rows
  folds : styleOf tag text asLines simpleKey = .doubleQuoted → simpleKey = false →
    FoldsAt indent text.toList

theorem eq_impliedTag_of_styleOf {tag text : String} {simpleKey asLines : Bool}
    (h : styleOf tag text asLines simpleKey = .plain) :
    tag = impliedTag text ∧ allowsPlain text.toList = true := by
  unfold styleOf at h
  dsimp only at h
  split at h
  · next hplain =>
    simp only [Bool.and_eq_true, beq_iff_eq] at hplain
    exact ⟨hplain.1.1.2, hplain.1.2⟩
  · split_ifs at h

theorem allowsSingleQuotes_of_styleOf {tag text : String} {simpleKey asLines : Bool}
    (h : styleOf tag text asLines simpleKey = .singleQuoted) :
    allowsSingleQuotes text.toList = true := by
  unfold styleOf at h
  dsimp only at h
  split_ifs at h with _ _ _ hsingle
  exact (Bool.and_eq_true _ _ ▸ hsingle).1

/-- **What is written spells the text.** -/
theorem spells_spelling {tag text : String} {asLines simpleKey : Bool} {indent : Nat}
    (h : IsSpellable tag text asLines simpleKey indent) (column : Nat) :
    Spells indent
      (Ink.spelling (styleOf tag text asLines simpleKey) indent (!simpleKey) column text.toList)
      text.toList (styleOf tag text asLines simpleKey == .plain) := by
  cases hstyle : styleOf tag text asLines simpleKey with
  | plain =>
    obtain ⟨himplied, hallows⟩ := eq_impliedTag_of_styleOf hstyle
    have hplain := isPlain_of_allowsPlain (h.nonempty himplied) hallows
    exact .plain hplain (Ink.folds_plainRun _ _ _ _ _
      (fun c hc => ne_newline_of_takesColumn (hplain.columns c hc)) hplain.last)
  | singleQuoted =>
    have hallows := allowsSingleQuotes_of_styleOf hstyle
    simp only [allowsSingleQuotes, Bool.and_eq_true, Bool.not_eq_true', List.any_eq_false] at hallows
    obtain ⟨⟨hascii, hafter⟩, hbefore⟩ := hallows
    exact .single (fun c hc => takesColumn_of_not_needsEscape (by simpa using hascii c hc))
      (Ink.folds_singleQuotedRun _ _ _ _ _ hafter hbefore (.inl (by decide)))
  | doubleQuoted =>
    refine .double (foldsEscaped_doubleQuotedRun _ _ _ _ _ fun hsplit => ?_)
    exact h.folds hstyle (by simpa using hsplit)
  | literal =>
    obtain ⟨rows, hsome, hrows, htext⟩ := h.rows hstyle
    rw [Ink.spelling, htext, Ink.literalRun_rowsText hrows, List.dropLast_concat]
    exact .block hsome hrows

/-! ## Marks -/

/-- The marks of a scalar: its anchor, and its tag unless the style implies it. -/
def scalarMarks (anchor : Option String) (tag : String) (style : ScalarStyle) : Marks :=
  ⟨anchor.map String.toList,
    if writesTag tag style then some (tag.toList.drop (Tag.standard "").length) else none⟩

theorem IsScalarTag.isTagName {tag : String} (h : IsScalarTag tag) :
    Lexer.IsTagName (tag.toList.drop (Tag.standard "").length) := by
  simp only [IsScalarTag, List.mem_cons, List.not_mem_nil, or_false] at h
  rcases h with rfl | rfl | rfl | rfl | rfl | rfl | rfl <;> exact ⟨List.all_iff_forall_prop.mp (by decide), _, _, rfl, rfl⟩

theorem IsScalarTag.fullTag {tag : String} (h : IsScalarTag tag) :
    Tag.standard "" ++ String.ofList (tag.toList.drop (Tag.standard "").length) = tag := by
  simp only [IsScalarTag, List.mem_cons, List.not_mem_nil, or_false] at h
  rcases h with rfl | rfl | rfl | rfl | rfl | rfl | rfl <;> decide

theorem scalarTag_some {tag : String} (h : tag ≠ "!") (text : String) (isPlain : Bool) :
    NodeReader.scalarTag (some tag) text isPlain = tag := by
  unfold NodeReader.scalarTag
  split
  · next heq => cases heq
  · next heq => exact absurd (Option.some.inj heq) h
  · next heq => exact (Option.some.inj heq).symm

theorem IsScalarTag.ne_mark {tag : String} (h : IsScalarTag tag) : tag ≠ "!" := by
  have hall : ∀ tag ∈ [Tag.null, Tag.bool, Tag.int, Tag.float, Tag.text, Tag.binary, Tag.timestamp],
      tag ≠ "!" := by decide
  exact hall tag h

/-- The marks and the style of a scalar give its tag. -/
theorem scalarTag_scalarMarks {tag text : String} {simpleKey asLines : Bool} (h : IsScalarTag tag)
    (anchor : Option String) :
    NodeReader.scalarTag (scalarMarks anchor tag (styleOf tag text asLines simpleKey)).fullTag text
      (styleOf tag text asLines simpleKey == .plain) = tag := by
  rcases eq_or_ne (styleOf tag text asLines simpleKey) .plain with hplain | hquoted
  · rw [hplain]
    exact (eq_impliedTag_of_styleOf hplain).1.symm
  · by_cases htext : tag = Tag.text
    · rw [htext]
      simp only [scalarMarks, writesTag, bne_self_eq_false, Bool.and_false, Bool.false_eq_true, ↓reduceIte]
      rw [Marks.fullTag, Option.map_none, NodeReader.scalarTag, beq_eq_false_iff_ne.mpr, if_neg Bool.false_ne_true]
      rwa [htext] at hquoted
    · have hwrites : writesTag tag (styleOf tag text asLines simpleKey) = true := by
        simp [writesTag, hquoted, htext]
      rw [scalarMarks, hwrites, if_pos rfl, Marks.fullTag, Option.map_some, h.fullTag,
        scalarTag_some h.ne_mark]

/-- The name of an anchor can be read. -/
theorem isReadable_anchorOf {anchored : List Label} {label : Option Label} {name : String}
    (h : anchorOf anchored label = some name) : (Mark.anchor name.toList).IsReadable := by
  cases label with
  | none => cases h
  | some l =>
    simp only [anchorOf, Option.bind_eq_bind, Option.bind_some, Option.ite_none_right_eq_some,
      Option.some.injEq] at h
    obtain ⟨-, rfl⟩ := h
    rw [Mark.IsReadable, String.toList_append]
    refine ⟨List.cons_ne_nil 'i' _, List.forall_mem_append.mpr ⟨?_, fun c hc => ?_⟩⟩
    · exact List.all_eq_true.mp (by decide)
    · have hdigit : ('0' ≤ c && c ≤ '9') = true := isDigit_of_mem_zeroPadded hc
      simp only [isNameChar, hdigit, Bool.true_or]

theorem isReadable_scalarMarks {tag : String} (h : IsScalarTag tag) (style : ScalarStyle)
    {anchored : List Label} {label : Option Label} :
    ∀ mark ∈ (scalarMarks (anchorOf anchored label) tag style).all, mark.IsReadable := by
  simp only [scalarMarks, Marks.all, List.forall_mem_append, List.forall_mem_map, Option.mem_toList,
    Option.map_eq_some_iff, Option.ite_none_right_eq_some, Option.some.injEq]
  constructor
  · rintro _ ⟨name, hname, rfl⟩
    exact isReadable_anchorOf hname
  · rintro _ ⟨-, rfl⟩
    exact h.isTagName

/-! ## The ink of marks -/

/-- The ink of marks, one behind the other. -/
def Ink.marks (ms : List Mark) : Ink := ms.foldr (fun m ink => Ink.mark m.chars true ++ ink) Ink.none

namespace Ink

variable {pen : Pen} {a body : Ink} {first : List Char} {word : Nat → List Char}

theorem none_append (a : Ink) : none ++ a = a := by
  funext pen
  rw [append_apply]
  simp [none]

theorem marks_cons (m : Mark) (ms : List Mark) : marks (m :: ms) = mark m.chars true ++ marks ms := rfl

theorem marks_append (ms more : List Mark) : marks (ms ++ more) = marks ms ++ marks more := by
  induction ms with
  | nil => exact (none_append _).symm
  | cons m ms ih => rw [List.cons_append, marks_cons, marks_cons, ih, append_assoc]

theorem Writes.before (ha : a.Writes pen first)
    (hbody : ∀ pen, ∃ column, body.Writes pen (word column)) :
    ∃ column, (a ++ body).Writes pen (first ++ ' ' :: word column) := by
  obtain ⟨hchars, column, hpen⟩ := ha
  obtain ⟨column', hchars', column'', hpen'⟩ := hbody (a pen).2
  refine ⟨column', ?_, column'', ?_⟩
  · rw [append_apply, hchars, hchars', hpen]
    cases pen.afterBlank <;> simp
  · rw [append_apply, hpen', hpen]

/-- Where the pen stands behind marks. -/
theorem exists_marks (ms : List Mark) (hpen : pen.afterBlank = false) : ∃ p,
    marks ms pen = (ms.flatMap fun m => ' ' :: m.chars, p) ∧ p.afterBlank = false ∧
      p.written = pen.written ∧ (ms = [] → p = pen) ∧ (ms ≠ [] → p.inIndentation = false) := by
  induction ms generalizing pen with
  | nil => exact ⟨pen, rfl, hpen, rfl, fun _ => rfl, (absurd rfl ·)⟩
  | cons m ms ih =>
    obtain ⟨hchars, column, hbehind⟩ := writes_mark pen m.chars
    have hpen' : (⟨column, false, false, pen.written⟩ : Pen).afterBlank = false := rfl
    obtain ⟨p, hms, hafter, hwritten, hnone, hsome⟩ := ih hpen'
    refine ⟨p, ?_, hafter, hwritten, nofun, fun _ => ?_⟩
    · rw [marks_cons, append_apply, hchars, hbehind, hms, hpen, if_neg Bool.false_ne_true]
      rfl
    · cases ms with
      | nil => rw [hnone rfl]
      | cons => exact hsome (List.cons_ne_nil _ _)

/-- A word behind marks. -/
theorem exists_writes_marks (ms : List Mark) (hbody : ∀ pen, ∃ column, body.Writes pen (word column))
    (pen : Pen) : ∃ column,
      (marks ms ++ body).Writes pen ((ms.flatMap fun m => ' ' :: m.chars) ++ ' ' :: word column).tail := by
  induction ms generalizing pen with
  | nil => exact hbody pen
  | cons m ms ih =>
    have hrest : ∀ pen, ∃ column, (marks ms ++ body).Writes pen
        ((fun column => ((ms.flatMap fun m => ' ' :: m.chars) ++ ' ' :: word column).tail) column) := ih
    obtain ⟨column, hwrites⟩ := (writes_mark pen m.chars).before hrest
    refine ⟨column, ?_⟩
    rw [marks_cons, append_assoc]
    convert hwrites using 1
    cases ms <;> simp

end Ink

/-! ## Lines -/

/-- The pen at the start of a line that is indented by `i`. -/
def Pen.fresh (i : Nat) (written : List Label) : Pen := ⟨i, true, true, written⟩

namespace Ink

/-- What ink writes, with the line behind it started wherever that may be, and the pen is at the start
of that line then. -/
def Settles (ink : Ink) (pen : Pen) (chars : List Char) : Prop :=
  ∀ i, ∃ gap, startLine i (ink pen).2 = (gap, .fresh i (ink pen).2.written) ∧
    (ink pen).1 ++ gap = chars ++ newLine i

variable {a b : Ink} {pen p : Pen} {chars before gap more : List Char} {column : Nat}

theorem startLine_of_written (h : pen.inIndentation = false) (i : Nat) :
    startLine i pen = (newLine i, .fresh i pen.written) := by
  cases i with
  | zero => simp [startLine, h, lineBreak, newLine, Pen.fresh]
  | succ i => simp [startLine, h, lineBreak, newLine, Pen.fresh]

/-- Behind an indicator of its own line a nested line starts two columns further in. -/
theorem startLine_nested (i : Nat) (written : List Label) :
    startLine (i + 2) ⟨i + 1, false, true, written⟩ = ([' '], .fresh (i + 2) written) := by
  have hless : ¬ i + 2 < i + 1 := by omega
  have hgap : i + 2 - (i + 1) = 1 := by omega
  simp [startLine, hless, hgap, Pen.fresh]

/-- What stands on one line settles: the next line starts behind it. -/
theorem settles_of_written (hchars : (a pen).1 = chars) (hpen : (a pen).2.inIndentation = false) :
    a.Settles pen chars :=
  fun i => ⟨newLine i, startLine_of_written hpen i, by rw [hchars]⟩

/-- What ends its line settles: the next line starts without a break. -/
theorem settles_of_ended {written : List Label} (hchars : (a pen).1 = chars ++ ['\n'])
    (hpen : (a pen).2 = ⟨0, true, true, written⟩) : a.Settles pen chars := by
  intro i
  refine ⟨List.replicate i ' ', ?_, by rw [hchars, newLine]; simp⟩
  rw [hpen]
  cases i <;> simp [startLine, Pen.fresh]

theorem Settles.congr {p : Pen} (h : b.Settles p chars) (hsame : a pen = b p) :
    a.Settles pen chars := by
  intro i
  rw [hsame]
  exact h i

theorem Settles.behind (h : b.Settles p chars) (hbefore : a pen = (before, p)) :
    (a ++ b).Settles pen (before ++ chars) := by
  intro i
  obtain ⟨gap, hgap, hchars⟩ := h i
  rw [append_apply, hbefore]
  exact ⟨gap, hgap, by simp only [List.append_assoc, hchars]⟩

theorem settles_choose {piece : Pen → Ink} (hpiece : piece pen = a) (h : a.Settles pen chars) :
    (choose piece).Settles pen chars :=
  h.congr (by rw [← hpiece]; rfl)

/-- On the next line the writing goes on. -/
theorem Settles.below (h : b.Settles (a pen).2 (gap ++ more))
    (hgap : (a pen).1 ++ gap = chars ++ newLine column) :
    (a ++ b).Settles pen (chars ++ (newLine column ++ more)) := by
  intro i
  obtain ⟨last, hlast, hchars⟩ := h i
  refine ⟨last, hlast, ?_⟩
  calc ((a ++ b) pen).1 ++ last = (a pen).1 ++ ((b (a pen).2).1 ++ last) := by
        rw [append_apply, List.append_assoc]
    _ = ((a pen).1 ++ gap) ++ (more ++ newLine i) := by rw [hchars]; simp
    _ = chars ++ (newLine column ++ more) ++ newLine i := by rw [hgap]; simp

end Ink

/-! ## Written scalars -/

/-- A scalar as it is written from a column on. -/
def writtenScalar (anchor : Option String) (tag text : String) (asLines simpleKey : Bool)
    (indent column : Nat) : Written :=
  .scalar (scalarMarks anchor tag (styleOf tag text asLines simpleKey))
    (styleOf tag text asLines simpleKey == .plain) text.toList
    (Ink.spelling (styleOf tag text asLines simpleKey) indent (!simpleKey) column text.toList)

section WrittenScalar

variable {anchored : List Label} {v : Value} {tag text : String} {asLines simpleKey : Bool}
  {anchor : Option String} {indent column : Nat}

theorem lineChars_writtenScalar :
    Written.lineChars (writtenScalar anchor tag text asLines simpleKey indent column).words =
      (scalarMarks anchor tag (styleOf tag text asLines simpleKey)).chars ++
        ' ' :: Ink.spelling (styleOf tag text asLines simpleKey) indent (!simpleKey) column
          text.toList := by
  simp [writtenScalar, Written.words, Written.lineChars, Marks.chars, List.flatMap_map]

theorem chars_writtenScalar (i : Nat) (place : Place) :
    (writtenScalar anchor tag text asLines simpleKey indent column).chars i place =
      Written.lineChars (writtenScalar anchor tag text asLines simpleKey indent column).words := by
  rw [lineChars_writtenScalar]
  rfl

theorem shows_writtenScalar {o : Occurrences} (h : scalarForm v = some (tag, text, asLines))
    (hnew : ∀ l, labelOf v = some l → l ∉ o.met) (simpleKey : Bool) (indent column : Nat) :
    (writtenScalar (anchorOf anchored (labelOf v)) tag text asLines simpleKey indent column).Shows
      anchored o v := by
  refine Written.shows_scalar ?_ hnew (?_ : scalarForm v = some (_, _, asLines))
  · simp [scalarMarks, Function.comp_def]
  · rw [String.ofList_toList, scalarTag_scalarMarks (isScalarTag_of_scalarForm h), h]

theorem isReadable_writtenScalar {label : Option Label} {i : Nat} (htag : IsScalarTag tag)
    (h : IsSpellable tag text asLines simpleKey (i + 2)) (column : Nat) (place : Place) :
    (writtenScalar (anchorOf anchored label) tag text asLines simpleKey (i + 2) column).IsReadable i
      place :=
  ⟨isReadable_scalarMarks htag _, spells_spelling h column⟩

/-- The ink of an anchor. -/
def anchorInk (anchor : Option String) : Ink :=
  Ink.marks (anchor.map String.toList |>.toList.map Mark.anchor)

theorem anchorInk_scalarInk :
    anchorInk anchor ++ scalarInk indent simpleKey tag text asLines =
      Ink.marks (scalarMarks anchor tag (styleOf tag text asLines simpleKey)).all ++
        Ink.body (styleOf tag text asLines simpleKey) indent (!simpleKey) text.toList := by
  have hscalar : scalarInk indent simpleKey tag text asLines =
      Ink.marks ((scalarMarks none tag (styleOf tag text asLines simpleKey)).all) ++
        Ink.body (styleOf tag text asLines simpleKey) indent (!simpleKey) text.toList := by
    have hbody : scalarInk indent simpleKey tag text asLines =
        if writesTag tag (styleOf tag text asLines simpleKey) then
          Ink.mark (shortTag tag) true ++
            Ink.body (styleOf tag text asLines simpleKey) indent (!simpleKey) text.toList
        else Ink.body (styleOf tag text asLines simpleKey) indent (!simpleKey) text.toList := by
      unfold scalarInk
      dsimp only
      cases styleOf tag text asLines simpleKey <;> rfl
    rw [hbody, scalarMarks, Marks.all]
    split
    · exact congrArg (· ++ _) (Ink.append_none _).symm
    · exact (Ink.none_append _).symm
  rw [hscalar, anchorInk, ← Ink.append_assoc, ← Ink.marks_append]
  rfl

/-- A scalar that is no block writes its words on the line. -/
theorem exists_writes_scalar (anchor : Option String) (h : IsSpellable tag text asLines simpleKey indent)
    (hstyle : styleOf tag text asLines simpleKey ≠ .literal) (pen : Pen) : ∃ column,
    (anchorInk anchor ++ scalarInk indent simpleKey tag text asLines).Writes pen
      (Written.lineChars (writtenScalar anchor tag text asLines simpleKey indent column).words).tail := by
  simp only [anchorInk_scalarInk, lineChars_writtenScalar]
  exact Ink.exists_writes_marks _
    (Ink.exists_writes_body hstyle fun hplain => h.nonempty (eq_impliedTag_of_styleOf hplain).1) pen

/-- A scalar on the line, or a block of lines below it. -/
theorem exists_settles_scalar (anchor : Option String) (h : IsSpellable tag text asLines simpleKey indent) {pen : Pen}
    (hpen : pen.afterBlank = false) : ∃ column,
    (anchorInk anchor ++ scalarInk indent simpleKey tag text asLines).Settles pen
        (Written.lineChars (writtenScalar anchor tag text asLines simpleKey indent column).words) ∧
      ((anchorInk anchor ++ scalarInk indent simpleKey tag text asLines) pen).2.written = pen.written := by
  by_cases hstyle : styleOf tag text asLines simpleKey = .literal
  · obtain ⟨rows, hsome, hrows, htext⟩ := h.rows hstyle
    obtain ⟨p, hmarks, hafter, hwritten, -⟩ := Ink.exists_marks
      (scalarMarks anchor tag (styleOf tag text asLines simpleKey)).all hpen
    have hliteral := Ink.literal_rowsText indent hsome hrows hafter
    rw [← htext] at hliteral
    rw [hstyle] at hmarks
    simp only [anchorInk_scalarInk, lineChars_writtenScalar, hstyle]
    refine ⟨0, ?_, ?_⟩
    · refine Ink.Settles.behind (Ink.settles_of_ended ?_ (congrArg Prod.snd hliteral)) hmarks
      refine (congrArg Prod.fst hliteral).trans ?_
      rw [Ink.spelling, htext, Ink.literalRun_rowsText hrows, List.dropLast_concat]
      rfl
    · rw [Ink.append_apply, hmarks]
      exact (congrArg (fun out => out.2.written) hliteral).trans hwritten
  · obtain ⟨column, hchars, column', hafter⟩ := exists_writes_scalar anchor h hstyle pen
    refine ⟨column, Ink.settles_of_written ?_ (by rw [hafter]), by rw [hafter]⟩
    rw [hchars, hpen, if_neg Bool.false_ne_true, lineChars_writtenScalar]
    cases hall : (scalarMarks anchor tag (styleOf tag text asLines simpleKey)).all <;>
      simp [Marks.chars, hall]

end WrittenScalar

end DevMachines.Yaml
