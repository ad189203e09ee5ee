import DevMachines.Proofs.Yaml.TokenSteps

/-!
# A written scalar is one token

`Spells` gathers the ways in which a scalar is written.  Whatever the way, the lexer reads what is
written as one token with the text that was meant, in front of the colon of an entry and at the end
of a line alike.

Main statements: `Spells.token_key` and `Spells.leads`.
-/

namespace DevMachines.Yaml

/-- A text that can stand without quotes. -/
structure IsPlain (text : List Char) : Prop where
  nonempty : text ≠ []
  columns : ∀ c ∈ text, TakesColumn c
  first : text.headD endMark ≠ ' '
  last : text.getLast? ≠ some ' '
  indicator : startsWithIndicator text = false
  inner : hasInnerIndicator ' ' text = false
  no_hyphens : ¬ ['-', '-', '-'].isPrefixOf text
  no_dots : ¬ ['.', '.', '.'].isPrefixOf text

theorem takesColumn_of_not_needsEscape {c : Char} (h : needsEscape c = false) :
    c = '\n' ∨ TakesColumn c := by
  simp only [needsEscape, Bool.not_eq_false', Bool.or_eq_true, beq_iff_eq, Bool.and_eq_true,
    decide_eq_true_eq] at h
  exact h

theorem isPlain_of_allowsPlain {text : List Char} (hsome : text ≠ [])
    (h : allowsPlain text = true) : IsPlain text := by
  obtain ⟨first, rest, rfl⟩ := List.exists_cons_of_ne_nil hsome
  simp only [allowsPlain, Bool.and_eq_true, Bool.not_eq_true', Bool.or_eq_false_iff,
    List.any_eq_false, isSpace] at h
  obtain ⟨⟨⟨⟨⟨⟨hfirst, hlast⟩, hbreaks⟩, hescapes⟩, hindicator⟩, hinner⟩, hhyphens, hdots⟩ := h
  have hfirst' : first ≠ ' ' := ne_of_beq_false hfirst
  have hnumber : first ≠ '#' := by
    rintro rfl
    simp [startsWithIndicator] at hindicator
  have hcolon : (first == ':' && blankNext rest) = false := by
    simp only [startsWithIndicator, Bool.or_eq_false_iff] at hindicator
    cases hblank : blankNext rest with
    | false => rw [Bool.and_false]
    | true =>
      rw [Bool.and_true, beq_eq_false_iff_ne]
      rintro rfl
      simp [hblank] at hindicator
  refine ⟨hsome, ?_, hfirst', ?_, hindicator, ?_, Bool.eq_false_iff.mp hhyphens,
    Bool.eq_false_iff.mp hdots⟩
  · intro c hc
    refine (takesColumn_of_not_needsEscape (by simpa using hescapes c hc)).resolve_left ?_
    rintro rfl
    exact absurd (hbreaks _ hc) (by decide)
  · rw [List.getLast?_cons]
    intro heq
    rw [Option.some.inj heq] at hlast
    exact absurd hlast (by decide)
  · simp only [hasInnerIndicator, hcolon, hinner, Bool.or_false, Bool.false_or, Bool.and_eq_false_iff,
      beq_eq_false_iff_ne]
    exact .inl hnumber

theorem IsPlain.solid {text : List Char} (h : IsPlain text) : IsSolid (text.headD endMark) := by
  obtain ⟨d, ds, rfl⟩ := List.exists_cons_of_ne_nil h.nonempty
  refine ⟨h.first, fun hbreak => ?_⟩
  have hcolumn := h.columns d (by simp)
  rw [show d = '\n' from hbreak] at hcolumn
  exact absurd hcolumn (by decide)

/-- A scalar as it is written on lines that are indented by `indent`, the text it means, and whether
it is plain. -/
inductive Spells (indent : Nat) : List Char → List Char → Bool → Prop where
  | plain {text written : List Char} (htext : IsPlain text)
      (h : Folds indent (fun c => [c]) text written) : Spells indent written text true
  | single {text written : List Char} (htext : ∀ c ∈ text, c = '\n' ∨ TakesColumn c)
      (h : Folds indent Ink.doubledQuote text written) :
      Spells indent ('\'' :: (written ++ ['\''])) text false
  | double {text written : List Char} (h : FoldsEscaped indent text written) :
      Spells indent ('"' :: (written ++ ['"'])) text false
  | block {rows : List (List Char)} (hsome : rows ≠ []) (hrows : ∀ row ∈ rows, IsRow row) :
      Spells indent ('|' :: rowsBelow indent rows) (rowsText rows) false

theorem onPage_doubledQuote {c : Char} (hc : OnPage c) : ∀ d ∈ Ink.doubledQuote c, OnPage d := by
  unfold Ink.doubledQuote
  split
  · exact List.all_iff_forall_prop.mp (by decide)
  · simpa using hc

theorem Spells.onPage {indent : Nat} {text written : List Char} {isPlain : Bool}
    (h : Spells indent written text isPlain) : ∀ c ∈ written, OnPage c := by
  cases h with
  | plain htext h => exact h.onPage (by simp) fun c hc => .inr (htext.columns c hc)
  | single htext h =>
    have hinside := h.onPage (fun c _ hc => onPage_doubledQuote hc) htext
    simp only [List.forall_mem_cons, List.forall_mem_append]
    exact ⟨.inr (by decide), hinside, .inr (by decide), List.forall_mem_nil _⟩
  | double h =>
    simp only [List.forall_mem_cons, List.forall_mem_append]
    exact ⟨.inr (by decide), h.onPage, .inr (by decide), List.forall_mem_nil _⟩
  | block _ hrows =>
    rw [List.forall_mem_cons]
    exact ⟨.inr (by decide), onPage_rowsBelow hrows⟩

/-! ## The start of a scalar -/

/-- A marker of three characters that begins a text is in its first word. -/
theorem isPrefixOf_of_append {mark : Char} {word more : List Char}
    (hmore : more.headD endMark ≠ mark)
    (h : [mark, mark, mark].isPrefixOf (word ++ more) = true) (others : List Char) :
    [mark, mark, mark].isPrefixOf (word ++ others) = true := by
  match word, more with
  | [], [] | [a], [] | [a, b], [] => simp at h
  | [], d :: _ | [a], d :: _ | [a, b], d :: _ =>
    simp only [List.headD_cons] at hmore
    simp [hmore.symm] at h
  | a :: b :: d :: rest, _ => simpa using h

/-- How a plain scalar begins: with a word of its text, and what follows the word is no part of it. -/
theorem IsPlain.exists_word {indent : Nat} {text written rest : List Char} (htext : IsPlain text)
    (h : Folds indent (fun c => [c]) text written)
    (hrest : rest.headD endMark = ':' ∨ rest.headD endMark = '\n') :
    ∃ word more writtenMore, text = word ++ more ∧ written ++ rest = word ++ writtenMore ∧
      word ≠ [] ∧ blankNext more = true ∧
      (writtenMore.headD endMark = ' ' ∨ writtenMore.headD endMark = '\n' ∨
        writtenMore.headD endMark = ':') := by
  obtain ⟨word, more, writtenMore, htextEq, rfl, hword, -, hmore, hend⟩ :=
    h.exists_word htext.nonempty htext.solid
  rw [List.flatMap_singleton']
  refine ⟨word, more, writtenMore ++ rest, htextEq, List.append_assoc .., hword, ?_⟩
  have hbreak : ∀ c ∈ more, c ≠ '\n' := by
    rintro c hc rfl
    exact absurd (htext.columns _ (by rw [htextEq]; exact List.mem_append_right word hc)) (by decide)
  rcases hmore.exists_space hbreak hend with
    ⟨rfl, rfl⟩ | ⟨n, space, next, writtenNext, rfl, rfl, hspace, -, -⟩
  · refine ⟨rfl, ?_⟩
    rw [List.nil_append]
    exact .inr hrest.symm
  · refine ⟨rfl, ?_⟩
    rcases hspace with rfl | ⟨-, rfl⟩
    · exact .inl rfl
    · exact .inr (.inl rfl)

theorem IsPlain.startsWithIndicator {indent : Nat} {text written rest : List Char}
    (htext : IsPlain text) (h : Folds indent (fun c => [c]) text written)
    (hrest : rest.headD endMark = ':' ∨ rest.headD endMark = '\n') :
    startsWithIndicator (written ++ rest) = false := by
  obtain ⟨word, more, writtenMore, htextEq, hwrittenEq, hword, hmore, -⟩ := htext.exists_word h hrest
  have hindicator := htext.indicator
  obtain ⟨ch, word, rfl⟩ := List.exists_cons_of_ne_nil hword
  rw [htextEq] at hindicator
  rw [hwrittenEq]
  cases word with
  | cons d word => exact hindicator
  | nil =>
    simp only [List.cons_append, List.nil_append, Yaml.startsWithIndicator, hmore, Bool.and_true,
      Bool.or_eq_false_iff] at hindicator ⊢
    exact ⟨hindicator.1, by simp [hindicator.2]⟩

theorem IsPlain.beginsToken {indent : Nat} {text written rest : List Char} (htext : IsPlain text)
    (h : Folds indent (fun c => [c]) text written)
    (hrest : rest.headD endMark = ':' ∨ rest.headD endMark = '\n') :
    BeginsToken (written ++ rest) := by
  obtain ⟨word, more, writtenMore, htextEq, hwrittenEq, hword, hmore, hnext⟩ :=
    htext.exists_word h hrest
  have hhead : (written ++ rest).headD endMark = text.headD endMark :=
    h.headD_append (by simp) htext.nonempty htext.solid rest
  have hcolumn : TakesColumn (text.headD endMark) := by
    obtain ⟨d, ds, hd⟩ := List.exists_cons_of_ne_nil htext.nonempty
    rw [hd]
    exact htext.columns d (by simp [hd])
  refine ⟨hhead ▸ htext.first, hhead ▸ headD_ne_numberSign htext.inner,
    hhead ▸ hcolumn.not_isBreak, fun hhyphens => ?_, fun hdots => ?_⟩
  · rw [hwrittenEq] at hhyphens
    refine htext.no_hyphens ?_
    rw [htextEq]
    refine isPrefixOf_of_append ?_ hhyphens more
    rcases hnext with h | h | h <;> rw [h] <;> decide
  · rw [hwrittenEq] at hdots
    refine htext.no_dots ?_
    rw [htextEq]
    refine isPrefixOf_of_append ?_ hdots more
    rcases hnext with h | h | h <;> rw [h] <;> decide

/-- A quote begins a token. -/
theorem beginsToken_cons {ch : Char} (hch : ch ∉ [' ', '#', '-', '.']) (hbreak : isBreak ch = false)
    (rest : List Char) : BeginsToken (ch :: rest) := by
  simp only [List.mem_cons, List.not_mem_nil, or_false, not_or] at hch
  exact ⟨hch.1, hch.2.1, hbreak, by simp [Ne.symm hch.2.2.1], by simp [Ne.symm hch.2.2.2]⟩

theorem Spells.beginsToken {indent : Nat} {text written rest : List Char} {isPlain : Bool}
    (h : Spells indent written text isPlain)
    (hrest : rest.headD endMark = ':' ∨ rest.headD endMark = '\n') :
    BeginsToken (written ++ rest) := by
  cases h with
  | plain htext h => exact htext.beginsToken h hrest
  | single | double | block => exact beginsToken_cons (by decide) (by decide) _

/-! ## Reading a scalar -/

section Reading

open Lexer

variable {indent : Nat} {text written rest : List Char} {isPlain : Bool} {c : Cursor}
  {tokens : List Token} {limit : Int} {indents : List Int} {allowKey : Bool}
  {key : Option PossibleKey}

/-- The reader of plain scalars takes what was written, and the space behind it. -/
theorem IsPlain.plainWords_eq (htext : IsPlain text) (h : Folds indent (fun c => [c]) text written)
    (hlimit : limit < indent) (hpos : 0 < indent) (hrest : c.rest = written ++ rest)
    (hcolumn : limit ≤ c.column) (hend : EndsPlain (limit + 1) (c.skip written.length)) :
    plainWords false (limit + 1) (c.rest.length + 1) [] false c =
      (text, (plainSpace (c.skip written.length)).2) := by
  have hlength : text.length ≤ written.length := h.length_le (by simp)
  have hread : plainWords false (limit + 1) (c.rest.length + 1) [] false c = _ :=
    plainWords_folds h htext.nonempty htext.solid htext.last htext.columns htext.inner
      (headD_ne_numberSign htext.inner) (by omega) hpos hrest (by omega)
      (by rw [hrest, List.length_append]; omega) hend
  simpa using hread

theorem IsPlain.token_eq (htext : IsPlain text) (h : Folds indent (fun c => [c]) text written)
    (hrest : c.rest = written ++ rest)
    (hnext : rest.headD endMark = ':' ∨ rest.headD endMark = '\n') :
    (outside c tokens limit indents allowKey key).token =
      (outside c tokens limit indents allowKey key).plainToken := by
  have hbegins := htext.beginsToken h hnext
  have hindicator := htext.startsWithIndicator h hnext
  have hhead := h.headD_append (by simp) htext.nonempty htext.solid rest
  have hword : IsWordChar (text.headD endMark) :=
    isWordChar_headD (fun c hc => .inr (htext.columns c hc)) htext.nonempty htext.solid
  obtain ⟨ch, more, hmore⟩ : ∃ ch more, written ++ rest = ch :: more := by
    refine List.exists_cons_of_ne_nil fun hnil => hword.1.ne_endMark ?_
    rw [← hhead, hnil]
    rfl
  rw [← hhead, hmore] at hword
  rw [hmore] at hrest hbegins hindicator
  exact token_plain (hrest ▸ hbegins) hrest hword hindicator

/-- The state after the quoted or plain scalar that has been written, up to what follows it. -/
theorem Spells.token_quoted (h : Spells indent written text false)
    (hquote : written.headD endMark ≠ '|') (hpos : 0 < indent) (hrest : c.rest = written ++ rest) (hnext : rest.headD endMark = ':' ∨ rest.headD endMark = '\n')
    (hkey : allowKey = true → IsOptional key) :
    (outside c tokens limit indents allowKey key).token =
      .ok (outside (c.skip written.length) (tokens ++ [.scalar (String.ofList text) false]) limit
        indents false (keyAfter c tokens limit allowKey key)) := by
  have hbegins := h.beginsToken hnext
  rw [← hrest] at hbegins
  cases h with
  | single htext h =>
    rw [List.cons_append, List.append_assoc] at hrest
    have hclosed : rest.headD endMark ≠ '\'' := by rcases hnext with h | h <;> rw [h] <;> decide
    have hread := readsQuoted_folds (c := c.next) h htext hpos (by rw [Cursor.rest_next, hrest]; rfl)
      hclosed
    have htoken : (outside c tokens limit indents allowKey key).token = _ :=
      token_quoted false hbegins hkey hrest hread
    simpa [Cursor.skip_succ] using htoken
  | double h =>
    rw [List.cons_append, List.append_assoc] at hrest
    have hread := readsQuoted_foldsEscaped (c := c.next) h hpos (by rw [Cursor.rest_next, hrest]; rfl)
    have htoken : (outside c tokens limit indents allowKey key).token = _ :=
      token_quoted true hbegins hkey hrest hread
    simpa [Cursor.skip_succ] using htoken
  | block => exact absurd rfl hquote

/-- What stands on one line is no block. -/
theorem Spells.headD_ne_bar (h : Spells indent written text false)
    (hcolumns : ∀ ch ∈ written, TakesColumn ch) : written.headD endMark ≠ '|' := by
  cases h with
  | single | double =>
    rw [List.headD_cons]
    decide
  | @block rows hsome =>
    obtain ⟨row, rows, rfl⟩ := List.exists_cons_of_ne_nil hsome
    have hbreak : TakesColumn '\n' := hcolumns '\n' (by simp [rowsBelow_cons])
    exact absurd hbreak (by decide)

/-- **In front of a colon a scalar is one token.** -/
theorem Spells.token_key (h : Spells indent written text isPlain)
    (hcolumns : ∀ ch ∈ written, TakesColumn ch) (hpos : 0 < indent)
    (hlimit : limit < indent) (hcolumn : limit ≤ c.column) (hrest : c.rest = written ++ ':' :: rest)
    (hblank : blankNext rest = true) (hkey : allowKey = true → IsOptional key) :
    (outside c tokens limit indents allowKey key).token =
      .ok (outside (c.skip written.length) (tokens ++ [.scalar (String.ofList text) isPlain]) limit
        indents false (keyAfter c tokens limit allowKey key)) := by
  cases isPlain with
  | false => exact h.token_quoted (h.headD_ne_bar hcolumns) hpos hrest (.inl rfl) hkey
  | true =>
    cases h with
    | plain htext h =>
      have hafter := Cursor.rest_skip_length hrest
      have hread := htext.plainWords_eq h hlimit hpos hrest hcolumn (endsPlain_colon hafter hblank)
      rw [plainSpace_colon hafter] at hread
      rw [htext.token_eq h hrest (.inl rfl), plainToken_outside hkey hread]

theorem Spells.length_pos (h : Spells indent written text isPlain) : 0 < written.length := by
  cases h with
  | plain htext h =>
    exact Nat.lt_of_lt_of_le (List.length_pos_of_ne_nil htext.nonempty) (h.length_le (by simp))
  | single | double | block => simp

/-- A block is read up to the line behind it. -/
theorem exists_token_block {rows : List (List Char)} {k : Nat} {more : List Char} (hsome : rows ≠ [])
    (hrows : ∀ row ∈ rows, IsRow row) (hlimit : limit < indent)
    (hrest : c.rest = '|' :: (rowsBelow indent rows ++ '\n' :: (List.replicate k ' ' ++ more)))
    (hbegins : BeginsToken more) (hk : k ≤ limit) (hkey : IsHarmless c.line key) :
    ∃ s, (outside c tokens limit indents allowKey key).token = .ok s ∧ s.done = false ∧
      s.cursor.rest.length ≤ (List.replicate k ' ' ++ more).length ∧
      s.arrive = (outside (c.skip ('|' :: rowsBelow indent rows).length)
        (tokens ++ [.scalar (String.ofList (rowsText rows)) false]) limit indents true none).arrive := by
  have hnext : c.next.rest = rowsBelow indent rows ++ '\n' :: (List.replicate k ' ' ++ more) := by
    rw [Cursor.rest_next, hrest]
    rfl
  have hread := blockScalar_rows hsome hrows hnext hlimit (by omega)
    ⟨hbegins.not_blank, hbegins.not_break⟩
  have hstart : BeginsToken c.rest := hrest ▸ beginsToken_cons (by decide) (by decide) _
  have hbehind : (c.skip ('|' :: rowsBelow indent rows).length).rest =
      '\n' :: (List.replicate k ' ' ++ more) := Cursor.rest_skip_length hrest
  have hcursor : c.next.skip ((rowsBelow indent rows).length + (k + 1)) =
      (c.skip ('|' :: rowsBelow indent rows).length).skip (k + 1) := by
    rw [← Cursor.skip_succ, ← Cursor.skip_add, List.length_cons]
    congr 1
    omega
  refine ⟨_, token_block hstart hkey.isOptional hrest hread, rfl, ?_, ?_⟩
  · show (c.next.skip ((rowsBelow indent rows).length + (k + 1))).rest.length ≤ _
    rw [hcursor, Cursor.rest_skip, hbehind]
    simp
  · rw [hcursor, arrive_behindLine hbehind hbegins (isHarmless_none _)]

/-- The token is read, and what follows is where the line ends. -/
theorem Spells.exists_token_line (h : Spells indent written text isPlain) (hpos : 0 < indent)
    (hlimit : limit < indent) (hcolumn : limit < c.column) (hrest : c.rest = written ++ rest)
    (hends : LineEnds limit rest) (hkey : IsHarmless c.line key) (allowKey' : Bool) :
    ∃ s, (outside c tokens limit indents allowKey key).token = .ok s ∧ s.done = false ∧
      s.cursor.rest.length ≤ rest.length ∧
      s.arrive = (outside (c.skip written.length) (tokens ++ [.scalar (String.ofList text) isPlain])
        limit indents allowKey' none).arrive := by
  have hafter := Cursor.rest_skip_length hrest
  have hline := Cursor.line_le_skip written.length c
  have hkeyAfter : IsHarmless (c.skip written.length).line (keyAfter c tokens limit allowKey key) :=
    (isHarmless_keyAfter hkey hcolumn).mono hline
  obtain ⟨k, more, rfl, hbegins, hk⟩ := hends
  cases isPlain with
  | false =>
    by_cases hbar : written.headD endMark = '|'
    · cases h with
      | single | double =>
        rw [List.headD_cons] at hbar
        exact absurd hbar (by decide)
      | block hsome hrows =>
        obtain ⟨s, htoken, hgoes, hlength, harrive⟩ :=
          exists_token_block hsome hrows
            hlimit hrest hbegins hk hkey
        exact ⟨s, htoken, hgoes, Nat.le_succ_of_le hlength, harrive.trans
          (arrive_lineEnd ⟨k, more, hafter, hbegins, hk⟩ (isHarmless_none _) (isHarmless_none _))⟩
    · refine ⟨_, h.token_quoted hbar hpos hrest (.inr rfl) fun _ => hkey.isOptional, rfl, ?_, ?_⟩
      · exact Nat.le_of_eq (congrArg List.length hafter)
      · exact arrive_lineEnd ⟨k, more, hafter, hbegins, hk⟩ hkeyAfter
          (isHarmless_none _)
  | true =>
    cases h with
    | plain htext h =>
      have hread := htext.plainWords_eq h hlimit hpos hrest (by omega)
        (endsPlain_line hafter hbegins (by omega))
      rw [plainSpace_line hafter hbegins] at hread
      refine ⟨_, (htext.token_eq h hrest (.inr rfl)).trans
        (plainToken_outside (fun _ => hkey.isOptional) hread), rfl, ?_, ?_⟩
      · have hle := Cursor.length_rest_skip_le (k + 1) (c.skip written.length)
        rwa [hafter] at hle
      · exact arrive_behindLine hafter hbegins hkeyAfter

/-- **At the end of a line a scalar is one token.** -/
theorem Spells.leads (h : Spells indent written text isPlain) (hpos : 0 < indent)
    (hlimit : limit < indent) {n : Nat} (hcolumn : limit < c.column + n)
    (hrest : c.rest = List.replicate n ' ' ++ (written ++ rest)) (hends : LineEnds limit rest)
    (hkey : IsHarmless c.line key) (allowKey' : Bool) :
    Leads (outside c tokens limit indents allowKey key)
      (outside (c.skip (n + written.length)) (tokens ++ [.scalar (String.ofList text) isPlain]) limit
        indents allowKey' none) := by
  have hnext : rest.headD endMark = ':' ∨ rest.headD endMark = '\n' := by
    obtain ⟨k, more, rfl, -⟩ := hends
    exact .inr rfl
  have harrive : (outside c tokens limit indents allowKey key).arrive = _ :=
    arrive_blanks hkey hrest (h.beginsToken hnext) (by omega)
  have hskip := Cursor.skip_blanks hrest
  have hfresh : IsHarmless (c.skip n).line (freshKey (c.skip n) key) := by
    rw [hskip]
    exact hkey.freshKey _
  obtain ⟨s, htoken, hgoes, hlength, heq⟩ :
      ∃ s, (outside (c.skip n) tokens limit indents allowKey _).token = .ok s ∧ _ :=
    h.exists_token_line hpos hlimit (by rw [hskip]; push_cast; omega) (by rw [hskip]) hends hfresh
      allowKey'
  rw [Cursor.skip_add]
  refine .step harrive htoken hgoes ?_ (.refl heq)
  have hpos := h.length_pos
  show s.cursor.rest.length < (c.skip n).rest.length
  rw [hskip]
  simp only [List.length_append]
  omega

end Reading

end DevMachines.Yaml
