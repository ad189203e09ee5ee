import DevMachines.Proofs.Yaml.Lines

/-!
# The tokens of a written value

A written value is cut into its tokens.  The proof goes over the tree: from the state in front of a
value the lexer comes to the state behind it, with the tokens of the value added and everything else
as it was.  What is written behind a value is on another line, so a block collection inside it ends
there.

Main statements: `Written.isLexed` and `tokens_document`.
-/

namespace DevMachines.Yaml

open Lexer

variable {c : Cursor} {tokens : List Token} {indent : Int} {indents : List Int} {allowKey : Bool}
  {key : Option PossibleKey} {rest lead : List Char} {column : Nat}

/-! ## The start of an item or an entry -/

/-- What leads to a column: a line break with blanks, or blanks alone where a key may start. -/
def Opens (lead : List Char) (column : Nat) (c : Cursor) (allowKey : Bool) : Prop :=
  lead = newLine column ∨
    allowKey = true ∧ ∃ n, lead = List.replicate n ' ' ∧ c.column + n = column

theorem Opens.arrive (tokens : List Token) (indents : List Int) (h : Opens lead column c allowKey)
    (hrest : c.rest = lead ++ rest)
    (hbegins : BeginsToken rest) (hindent : indent ≤ column) (hkey : IsHarmless c.line key) :
    ∃ key', (outside c tokens indent indents allowKey key).arrive =
        .ok (outside (c.skip lead.length) tokens indent indents true key') ∧
      IsOptional key' ∧ (c.skip lead.length).rest = rest ∧
      (c.skip lead.length).column = column := by
  rcases h with rfl | ⟨rfl, n, rfl, hn⟩
  · have hline : c.rest = '\n' :: (List.replicate column ' ' ++ rest) := hrest
    have hskip := Cursor.skip_newline hline
    have hlength : (newLine column).length = column + 1 := by simp [newLine]
    rw [hlength]
    refine ⟨none, ?_, isOptional_none, by rw [hskip], by rw [hskip]⟩
    refine (arrive_newLine rfl hkey hline hbegins).trans ?_
    exact congrArg _ (unwind_of_le hindent)
  · have hskip := Cursor.skip_blanks hrest
    rw [List.length_replicate]
    refine ⟨_, arrive_blanks hkey hrest hbegins (by omega), (hkey.freshKey _).isOptional,
      by rw [hskip], ?_⟩
    rw [hskip]
    exact hn

theorem innermost_eq (h : indent ≤ column) : innermost indent column = column := by
  rw [innermost]
  split <;> omega

/-! ## What is proved of every value -/

/-- A value at a place is read as its tokens: from the state in front of it the lexer comes to the
state behind it.  Behind an indicator of its own line a block may start right away. -/
def Written.IsLexed (i : Nat) (place : Place) (w : Written) : Prop :=
  ∀ ⦃c : Cursor⦄ ⦃tokens : List Token⦄ ⦃indents : List Int⦄ ⦃allowKey : Bool⦄
    ⦃key : Option PossibleKey⦄ ⦃rest : List Char⦄ (allowKey' : Bool),
    c.rest = w.chars i place ++ rest → LineEnds i rest → IsHarmless c.line key → i < c.column →
    (place ≠ .entry → allowKey = true ∧ c.column = i + 1) →
    Leads (outside c tokens i indents allowKey key)
      (outside (c.skip (w.chars i place).length) (tokens ++ w.tokens place) i indents allowKey' none)

theorem spaceFollows_lead (place : Place) (marks : Marks) (column : Nat) (more : List Char) :
    SpaceFollows (place.lead marks column ++ more) := by
  unfold Place.lead
  split
  · exact .inl rfl
  · exact .inr rfl

theorem Written.spaceFollows_itemChars {ws : List Written} (hsome : ws ≠ []) (place : Place)
    (marks : Marks) (column i : Nat) (more : List Char) :
    SpaceFollows (itemChars (place.lead marks column) i ws ++ more) := by
  obtain ⟨w, ws, rfl⟩ := List.exists_cons_of_ne_nil hsome
  rw [itemChars, List.append_assoc]
  exact spaceFollows_lead ..

theorem Written.spaceFollows_entryChars {entries : List (Bool × Written × Written)}
    (hsome : entries ≠ []) (place : Place) (marks : Marks) (column i : Nat) (more : List Char) :
    SpaceFollows (entryChars (place.lead marks column) i entries ++ more) := by
  obtain ⟨e, entries, rfl⟩ := List.exists_cons_of_ne_nil hsome
  rw [entryChars_cons, List.append_assoc]
  exact spaceFollows_lead ..

/-- A blank or a line feed comes first. -/
theorem Written.spaceFollows_chars (i : Nat) (place : Place) (w : Written) (rest : List Char) :
    SpaceFollows (w.chars i place ++ rest) := by
  have hmarks (marks : Marks) (more : List Char) (h : SpaceFollows more) :
      SpaceFollows (marks.chars ++ more) := spaceFollows_markChars marks.all h
  match w with
  | .alias name => exact .inl rfl
  | .scalar marks _ _ spelled =>
    rw [chars, List.append_assoc]
    exact hmarks _ _ (.inl rfl)
  | .list marks ws =>
    rw [chars, List.append_assoc]
    refine hmarks _ _ ?_
    split
    · exact .inl rfl
    · rename_i hsome
      exact spaceFollows_itemChars (by simpa using hsome) ..
  | .map marks entries =>
    rw [chars, List.append_assoc]
    refine hmarks _ _ ?_
    split
    · exact .inl rfl
    · rename_i hsome
      exact spaceFollows_entryChars (by simpa using hsome) ..

theorem SpaceFollows.blankNext {cs : List Char} (h : SpaceFollows cs) : blankNext cs = true := by
  rcases h with h | h <;> rw [Yaml.blankNext, h] <;> rfl

theorem SpaceFollows.beginsToken {ch : Char} (h : SpaceFollows rest)
    (hch : ch ∉ [' ', '#', '.']) (hbreak : isBreak ch = false) : BeginsToken (ch :: rest) := by
  simp only [List.mem_cons, List.not_mem_nil, or_false, not_or] at hch
  obtain ⟨d, ds, rfl⟩ : ∃ d ds, rest = d :: ds := by
    refine List.exists_cons_of_ne_nil ?_
    rintro rfl
    rcases h with h | h <;> exact absurd h (by decide)
  refine ⟨hch.1, hch.2.1, hbreak, ?_, by simp [Ne.symm hch.2.2]⟩
  rcases h with h | h <;> rw [List.headD_cons] at h <;> subst h <;> simp

/-! ## Items -/

theorem Written.lineEnds_itemChars (ws : List Written) (h : LineEnds column rest) :
    LineEnds column (itemChars (newLine column) column ws ++ rest) := by
  cases ws with
  | nil => exact h
  | cons w ws =>
    refine ⟨column, '-' :: (w.chars column .item ++ itemChars (newLine column) column ws ++ rest), ?_,
      ?_, Int.le_refl _⟩
    · simp [itemChars, newLine]
    · rw [List.append_assoc]
      exact (w.spaceFollows_chars ..).beginsToken (by decide) (by decide)

/-- One item. -/
theorem Written.leads_item {w : Written} (h : w.IsLexed column .item) (hlead : Opens lead column c allowKey)
    (hrest : c.rest = lead ++ '-' :: (w.chars column .item ++ rest)) (hends : LineEnds column rest)
    (hindent : indent ≤ column) (hkey : IsHarmless c.line key) (allowKey' : Bool) :
    Leads (outside c tokens indent indents allowKey key)
      (outside (c.skip (lead ++ '-' :: w.chars column .item).length)
        (tokens ++ opening indent column .blockSequenceStart ++ .blockEntry :: w.tokens .item)
        column (enclosing indent indents column) allowKey' none) := by
  have hspace := w.spaceFollows_chars column .item rest
  have hbegins : BeginsToken ('-' :: (w.chars column .item ++ rest)) :=
    hspace.beginsToken (by decide) (by decide)
  obtain ⟨key', harrive, hoptional, hhere, hcolumn⟩ :=
    hlead.arrive tokens indents hrest hbegins hindent hkey
  have htoken : (outside (c.skip lead.length) tokens indent indents true key').token = .ok _ :=
    token_hyphen (hhere ▸ hbegins) hoptional hhere hspace.blankNext
  have hnext : ((c.skip lead.length).skip 1).rest = w.chars column .item ++ rest := by
    rw [Cursor.rest_skip, hhere]
    rfl
  have hbehind : ((c.skip lead.length).skip 1).column = column + 1 := by
    rw [Cursor.skip_mark hhere (by decide), hcolumn]
  rw [hcolumn, innermost_eq hindent] at htoken
  have hvalue : Leads (outside ((c.skip lead.length).skip 1)
      (tokens ++ opening indent column .blockSequenceStart ++ [.blockEntry]) column
      (enclosing indent indents column) true none) _ :=
    h allowKey' hnext hends (isHarmless_none _) (by omega) fun _ => ⟨rfl, hbehind⟩
  rw [← Cursor.skip_add, ← Cursor.skip_add] at hvalue
  have hlength : (lead ++ '-' :: w.chars column .item).length =
      lead.length + 1 + (w.chars column .item).length := by
    simp only [List.length_append, List.length_cons]
    omega
  rw [hlength]
  refine .step harrive htoken rfl ?_ ?_
  · show ((c.skip lead.length).skip 1).rest.length < (c.skip lead.length).rest.length
    rw [hnext, hhere]
    simp
  · rw [← Cursor.skip_add]
    simpa using hvalue

/-- The items after the first. -/
theorem Written.leads_moreItems {ws : List Written} (h : ∀ w ∈ ws, w.IsLexed column .item)
    (hrest : c.rest = itemChars (newLine column) column ws ++ rest) (hends : LineEnds column rest)
    (allowKey' : Bool) :
    Leads (outside c tokens column indents allowKey none)
      (outside (c.skip (itemChars (newLine column) column ws).length) (tokens ++ itemTokens ws) column
        indents allowKey' none) := by
  induction ws generalizing c tokens allowKey with
  | nil =>
    rw [itemChars, itemTokens, List.append_nil]
    rw [itemChars, List.nil_append] at hrest
    exact leads_lineEnd (.refl rfl) (hrest.symm ▸ hends) (isHarmless_none _)
  | cons w ws ih =>
    simp only [List.forall_mem_cons] at h
    have hchars : itemChars (newLine column) column (w :: ws) =
        (newLine column ++ '-' :: w.chars column .item) ++ itemChars (newLine column) column ws := by
      simp [itemChars]
    rw [hchars] at hrest ⊢
    rw [List.append_assoc] at hrest
    have hfirst : Leads (outside c tokens column indents allowKey none) _ :=
      leads_item h.1 (.inl rfl) (by rw [hrest, List.append_assoc, List.cons_append])
        (lineEnds_itemChars ws hends) (Int.le_refl _) (isHarmless_none _) true
    simp only [opening, enclosing, Int.lt_irrefl, ↓reduceIte, List.append_nil] at hfirst
    have hmore : Leads (outside (c.skip (newLine column ++ '-' :: w.chars column .item).length)
        (tokens ++ .blockEntry :: w.tokens .item) column indents true none) _ :=
      ih h.2 (Cursor.rest_skip_length hrest)
    rw [List.length_append, Cursor.skip_add]
    refine hfirst.trans ?_
    simpa [itemTokens] using hmore

/-- Items, of which there is one at least. -/
theorem Written.leads_items {ws : List Written} (hsome : ws ≠ []) (h : ∀ w ∈ ws, w.IsLexed column .item)
    (hlead : Opens lead column c allowKey) (hrest : c.rest = itemChars lead column ws ++ rest)
    (hends : LineEnds column rest) (hindent : indent ≤ column) (hkey : IsHarmless c.line key)
    (allowKey' : Bool) :
    Leads (outside c tokens indent indents allowKey key)
      (outside (c.skip (itemChars lead column ws).length)
        (tokens ++ opening indent column .blockSequenceStart ++ itemTokens ws) column
        (enclosing indent indents column) allowKey' none) := by
  obtain ⟨w, ws, rfl⟩ := List.exists_cons_of_ne_nil hsome
  simp only [List.forall_mem_cons] at h
  have hchars : itemChars lead column (w :: ws) =
      (lead ++ '-' :: w.chars column .item) ++ itemChars (newLine column) column ws := by
    simp [itemChars]
  rw [hchars] at hrest ⊢
  rw [List.append_assoc] at hrest
  have hfirst : Leads (outside c tokens indent indents allowKey key) _ :=
    leads_item h.1 hlead (by rw [hrest, List.append_assoc, List.cons_append])
      (lineEnds_itemChars ws hends) hindent hkey true
  have hmore : Leads (outside (c.skip (lead ++ '-' :: w.chars column .item).length) (tokens ++
      opening indent column .blockSequenceStart ++ .blockEntry :: w.tokens .item) column
      (enclosing indent indents column) true none) _ :=
    leads_moreItems h.2 (Cursor.rest_skip_length hrest) hends allowKey'
  rw [List.length_append, Cursor.skip_add]
  refine hfirst.trans ?_
  simpa [itemTokens] using hmore

/-! ## Entries -/

/-- An entry whose parts are read as their tokens. -/
structure Written.EntryIsLexed (column : Nat) (isSimple : Bool) (k v : Written) : Prop where
  simple : isSimple = true → k.IsReadable column .part ∧ k.IsSimpleKey
  complex : isSimple = false → k.IsLexed column .part
  value : v.IsLexed column (if isSimple then .entry else .part)

theorem Written.beginsToken_key {k : Written} {more : List Char} (h : k.IsReadable column .part)
    (hsimple : k.IsSimpleKey) (hmore : SpaceFollows more) :
    BeginsToken ((lineChars k.words).tail ++ ':' :: more) := by
  have hwords := areWords h hsimple (Int.le_refl _) hmore.blankNext
  obtain ⟨⟨word, t⟩, words, heq⟩ := List.exists_cons_of_ne_nil hsimple.nonempty
  rw [heq] at hwords ⊢
  simpa [lineChars] using hwords.1.begins

theorem Written.beginsToken_entryLine {isSimple : Bool} {k v : Written}
    (h : EntryIsLexed column isSimple k v) (more : List Char) :
    BeginsToken (entryLine column (isSimple, k, v) ++ more) := by
  cases isSimple with
  | true =>
    obtain ⟨hread, hsimple⟩ := h.simple rfl
    simpa [entryLine] using beginsToken_key hread hsimple (v.spaceFollows_chars column .entry more)
  | false =>
    have hspace := k.spaceFollows_chars column .part (newLine column ++ ':' :: (v.chars column .part ++ more))
    simpa [entryLine] using SpaceFollows.beginsToken hspace (by decide) (by decide)

theorem Written.lineEnds_entryChars (entries : List (Bool × Written × Written))
    (hentries : ∀ e ∈ entries, EntryIsLexed column e.1 e.2.1 e.2.2) (h : LineEnds column rest) :
    LineEnds column (entryChars (newLine column) column entries ++ rest) := by
  match entries, hentries with
  | [], _ => exact h
  | (isSimple, k, v) :: entries, hentries =>
    simp only [List.forall_mem_cons] at hentries
    refine ⟨column, entryLine column (isSimple, k, v) ++ (entryChars (newLine column) column entries ++ rest),
      ?_, beginsToken_entryLine hentries.1 _, Int.le_refl _⟩
    simp [entryChars_cons, newLine]

theorem Written.map_words {k : Written} (h : k.words ≠ []) (place : Place) :
    k.words.map (·.2) = k.tokens place := by
  match k, h with
  | .alias name, _ => rfl
  | .scalar marks isPlain text spelled, _ =>
    simp [words, Written.tokens, Marks.tokens, Function.comp_def]
  | .list .., h => exact absurd rfl h
  | .map .., h => exact absurd rfl h

/-- An entry with a key in front of its colon. -/
theorem Written.leads_simpleEntry {k v : Written} (hkey : k.IsReadable column .part)
    (hsimple : k.IsSimpleKey) (hvalue : v.IsLexed column .entry) {s : Lexer}
    (harrive : s.arrive = .ok (outside c tokens indent indents true key)) (hoptional : IsOptional key)
    (hrest : c.rest = (lineChars k.words).tail ++ ':' :: (v.chars column .entry ++ rest))
    (hends : LineEnds column rest) (hcolumn : c.column = column) (hindent : indent ≤ column)
    (allowKey' : Bool) :
    Leads s (outside (c.skip ((lineChars k.words).length + (v.chars column .entry).length))
      (tokens ++ opening indent column .blockMappingStart ++
        .key :: (k.tokens .part ++ .value :: v.tokens .entry))
      column (enclosing indent indents column) allowKey' none) := by
  have hspace := v.spaceFollows_chars column .entry rest
  have hwords := areWords hkey hsimple hindent hspace.blankNext
  have hlead := leads_key hsimple.nonempty harrive hoptional hrest hwords (by omega) hsimple.isShort
    hspace.blankNext
  rw [hcolumn, innermost_eq hindent] at hlead
  -- The key and its colon stay on one line, so the value begins further in than the key.
  obtain ⟨⟨word, t⟩, words, heq⟩ := List.exists_cons_of_ne_nil hsimple.nonempty
  have hlength : ((lineChars k.words).tail ++ [':']).length = (lineChars k.words).length := by
    rw [heq, List.length_append, List.length_tail]
    simp [lineChars]
  have hline : c.rest = ((lineChars k.words).tail ++ [':']) ++ (v.chars column .entry ++ rest) := by
    simp [hrest]
  have hskip := Cursor.skip_columns hline (by
    simp only [List.forall_mem_append, List.forall_mem_singleton]
    exact ⟨fun ch hch => takesColumn_lineChars hwords.columns ch (List.mem_of_mem_tail hch),
      by decide⟩)
  rw [hlength] at hskip
  have hbehind : column < (c.skip (lineChars k.words).length).column := by
    rw [hskip, hcolumn, heq]
    simp [lineChars]
  have hlast : Leads (outside (c.skip (lineChars k.words).length) (tokens ++
      opening indent column .blockMappingStart ++ [.key] ++ k.words.map (·.2) ++ [.value]) column
      (enclosing indent indents column) false none) _ :=
    hvalue allowKey' (by rw [hskip]) hends (isHarmless_none _) hbehind fun h => absurd rfl h
  rw [Cursor.skip_add]
  refine hlead.trans ?_
  rw [map_words hsimple.nonempty .part] at hlast ⊢
  simpa using hlast

/-- The colon on a line of its own, behind a key with a question mark. -/
theorem leads_newLineColon (tokens : List Token) (indents : List Int) (allowKey : Bool) (h : c.rest = newLine column ++ ':' :: rest) (hspace : SpaceFollows rest) :
    (c.skip (column + 2)).rest = rest ∧ (c.skip (column + 2)).column = column + 1 ∧
      Leads (outside c tokens column indents allowKey none)
        (outside (c.skip (column + 2)) (tokens ++ [.value]) column indents true none) := by
  have hline : c.rest = '\n' :: (List.replicate column ' ' ++ ':' :: rest) := h
  have hbegins : BeginsToken (':' :: rest) := beginsToken_cons (by decide) (by decide) _
  have hskip := Cursor.skip_newline hline
  have hcolon : (c.skip (column + 1)).rest = ':' :: rest := by rw [hskip]
  have hafter := Cursor.skip_mark hcolon (by decide)
  have hcolumn : (c.skip (column + 1)).column = column := by rw [hskip]
  rw [show column + 2 = column + 1 + 1 from rfl, Cursor.skip_add]
  refine ⟨by rw [hafter], by rw [hafter, hcolumn], ?_⟩
  have harrive : (outside c tokens column indents allowKey none).arrive =
      .ok (outside (c.skip (column + 1)) tokens column indents true none) := by
    refine (arrive_newLine rfl (isHarmless_none _) hline hbegins).trans ?_
    exact congrArg _ (unwind_of_le (Int.le_refl _))
  have htoken : (outside (c.skip (column + 1)) tokens column indents true none).token = .ok _ :=
    (token_colon (hcolon ▸ hbegins) hcolon hspace.blankNext).trans entryValue_outside
  simp only [hcolumn, opening, innermost, enclosing, Int.lt_irrefl, ↓reduceIte, List.append_nil]
    at htoken
  refine .single harrive htoken rfl ?_
  show ((c.skip (column + 1)).skip 1).rest.length < (c.skip (column + 1)).rest.length
  rw [hafter, hcolon]
  simp

/-- An entry with a key behind a question mark. -/
theorem Written.leads_complexEntry {k v : Written} (hkey : k.IsLexed column .part)
    (hvalue : v.IsLexed column .part) {s : Lexer}
    (harrive : s.arrive = .ok (outside c tokens indent indents true key)) (hoptional : IsOptional key)
    (hrest : c.rest = '?' :: (k.chars column .part ++
      (newLine column ++ ':' :: (v.chars column .part ++ rest))))
    (hends : LineEnds column rest) (hcolumn : c.column = column) (hindent : indent ≤ column)
    (allowKey' : Bool) :
    Leads s (outside (c.skip (entryLine column (false, k, v)).length)
      (tokens ++ opening indent column .blockMappingStart ++
        .key :: (k.tokens .part ++ .value :: v.tokens .part))
      column (enclosing indent indents column) allowKey' none) := by
  have hspace := v.spaceFollows_chars column .part rest
  have hspace' := k.spaceFollows_chars column .part
    (newLine column ++ ':' :: (v.chars column .part ++ rest))
  have hbegins : BeginsToken c.rest := by
    rw [hrest]
    exact hspace'.beginsToken (by decide) (by decide)
  have htoken : (outside c tokens indent indents true key).token = .ok _ :=
    token_question hbegins hoptional hrest hspace'.blankNext
  rw [hcolumn, innermost_eq hindent] at htoken
  have hmark := Cursor.skip_mark hrest (by decide)
  have hbehind : (c.skip 1).column = column + 1 := by rw [hmark, hcolumn]
  have hline : (c.skip 1).rest = k.chars column .part ++
      (newLine column ++ ':' :: (v.chars column .part ++ rest)) := by rw [hmark]
  have hends' : LineEnds column (newLine column ++ ':' :: (v.chars column .part ++ rest)) :=
    ⟨column, ':' :: (v.chars column .part ++ rest), by simp [newLine],
      hspace.beginsToken (by decide) (by decide), Int.le_refl _⟩
  have hkeyLexed : Leads (outside (c.skip 1) (tokens ++ opening indent column .blockMappingStart ++
      [.key]) column (enclosing indent indents column) true none) _ :=
    hkey true hline hends' (isHarmless_none _) (by omega) fun _ => ⟨rfl, hbehind⟩
  obtain ⟨hvalueLine, hvalueColumn, hcolon⟩ := leads_newLineColon (tokens ++
    opening indent column .blockMappingStart ++ [.key] ++ k.tokens .part)
    (enclosing indent indents column) true (Cursor.rest_skip_length hline) hspace
  have hvalueLexed : Leads (outside _ (tokens ++ opening indent column .blockMappingStart ++ [.key] ++
      k.tokens .part ++ [.value]) column (enclosing indent indents column) true none) _ :=
    hvalue allowKey' hvalueLine hends (isHarmless_none _) (by omega) fun _ => ⟨rfl, hvalueColumn⟩
  have hlength : (entryLine column (false, k, v)).length =
      1 + (k.chars column .part).length + (column + 2) + (v.chars column .part).length := by
    simp only [entryLine, newLine, Bool.false_eq_true, ↓reduceIte, List.length_cons, List.length_append,
      List.length_replicate]
    omega
  rw [hlength, Cursor.skip_add, Cursor.skip_add (1 + _), Cursor.skip_add 1]
  refine .step harrive htoken rfl ?_ (hkeyLexed.trans (hcolon.trans ?_))
  swap
  · simpa only [List.append_assoc, List.cons_append, List.nil_append] using hvalueLexed
  show (c.skip 1).rest.length < c.rest.length
  rw [hline, hrest, List.length_cons]
  omega

/-- One entry. -/
theorem Written.leads_entry {isSimple : Bool} {k v : Written} (h : EntryIsLexed column isSimple k v)
    (hlead : Opens lead column c allowKey)
    (hrest : c.rest = lead ++ (entryLine column (isSimple, k, v) ++ rest)) (hends : LineEnds column rest)
    (hindent : indent ≤ column) (hkey : IsHarmless c.line key) (allowKey' : Bool) :
    Leads (outside c tokens indent indents allowKey key)
      (outside (c.skip (lead ++ entryLine column (isSimple, k, v)).length)
        (tokens ++ opening indent column .blockMappingStart ++ entryTokens [(isSimple, k, v)])
        column (enclosing indent indents column) allowKey' none) := by
  obtain ⟨key', harrive, hoptional, hhere, hcolumn⟩ :=
    hlead.arrive tokens indents hrest (beginsToken_entryLine h rest) hindent hkey
  rw [List.length_append, Cursor.skip_add]
  cases isSimple with
  | true =>
    obtain ⟨hread, hsimple⟩ := h.simple rfl
    have hlength : (entryLine column (true, k, v)).length =
        (lineChars k.words).length + (v.chars column .entry).length := by
      obtain ⟨word, words, heq⟩ := List.exists_cons_of_ne_nil hsimple.nonempty
      simp only [entryLine, ↓reduceIte, List.length_append, List.length_tail, List.length_cons, heq,
        lineChars, List.flatMap_cons]
      omega
    rw [hlength]
    simpa [entryTokens] using leads_simpleEntry hread hsimple h.value harrive hoptional
      (by simpa [entryLine] using hhere) hends hcolumn hindent allowKey'
  | false =>
    simpa [entryTokens] using leads_complexEntry (h.complex rfl) h.value harrive hoptional
      (by simpa [entryLine] using hhere) hends hcolumn hindent allowKey'

/-- The entries after the first. -/
theorem Written.leads_moreEntries {entries : List (Bool × Written × Written)}
    (h : ∀ e ∈ entries, EntryIsLexed column e.1 e.2.1 e.2.2)
    (hrest : c.rest = entryChars (newLine column) column entries ++ rest) (hends : LineEnds column rest)
    (allowKey' : Bool) :
    Leads (outside c tokens column indents allowKey none)
      (outside (c.skip (entryChars (newLine column) column entries).length)
        (tokens ++ entryTokens entries) column indents allowKey' none) := by
  induction entries generalizing c tokens allowKey with
  | nil =>
    rw [entryChars, entryTokens, List.append_nil]
    rw [entryChars, List.nil_append] at hrest
    exact leads_lineEnd (.refl rfl) (hrest.symm ▸ hends) (isHarmless_none _)
  | cons e entries ih =>
    simp only [List.forall_mem_cons] at h
    rw [entryChars_cons, ← List.append_assoc] at hrest ⊢
    rw [List.append_assoc] at hrest
    have hfirst : Leads (outside c tokens column indents allowKey none) _ :=
      leads_entry h.1 (.inl rfl) (by rw [hrest, List.append_assoc])
        (lineEnds_entryChars entries h.2 hends) (Int.le_refl _) (isHarmless_none _) true
    simp only [opening, enclosing, Int.lt_irrefl, ↓reduceIte, List.append_nil] at hfirst
    have hmore : Leads (outside (c.skip (newLine column ++ entryLine column e).length)
        (tokens ++ entryTokens [e]) column indents true none) _ :=
      ih h.2 (Cursor.rest_skip_length hrest)
    rw [List.length_append, Cursor.skip_add]
    refine hfirst.trans ?_
    simpa [entryTokens] using hmore

/-- Entries, of which there is one at least. -/
theorem Written.leads_entries {entries : List (Bool × Written × Written)} (hsome : entries ≠ [])
    (h : ∀ e ∈ entries, EntryIsLexed column e.1 e.2.1 e.2.2) (hlead : Opens lead column c allowKey)
    (hrest : c.rest = entryChars lead column entries ++ rest) (hends : LineEnds column rest)
    (hindent : indent ≤ column) (hkey : IsHarmless c.line key) (allowKey' : Bool) :
    Leads (outside c tokens indent indents allowKey key)
      (outside (c.skip (entryChars lead column entries).length)
        (tokens ++ opening indent column .blockMappingStart ++ entryTokens entries) column
        (enclosing indent indents column) allowKey' none) := by
  obtain ⟨e, entries, rfl⟩ := List.exists_cons_of_ne_nil hsome
  simp only [List.forall_mem_cons] at h
  rw [entryChars_cons, ← List.append_assoc] at hrest ⊢
  rw [List.append_assoc] at hrest
  have hfirst : Leads (outside c tokens indent indents allowKey key) _ :=
    leads_entry h.1 hlead (by rw [hrest, List.append_assoc]) (lineEnds_entryChars entries h.2 hends)
      hindent hkey true
  have hmore : Leads (outside (c.skip (lead ++ entryLine column e).length) (tokens ++
      opening indent column .blockMappingStart ++ entryTokens [e]) column
      (enclosing indent indents column) true none) _ :=
    leads_moreEntries h.2 (Cursor.rest_skip_length hrest) hends allowKey'
  rw [List.length_append, Cursor.skip_add]
  refine hfirst.trans ?_
  simpa [entryTokens] using hmore

/-! ## Values -/

/-- Marks are read one by one, and what follows them is read behind them. -/
theorem leads_behindMarks {marks : Marks} {i : Nat} {t : Lexer}
    (hmarks : ∀ mark ∈ marks.all, mark.IsReadable) (hrest : c.rest = marks.chars ++ rest)
    (hspace : SpaceFollows rest) (hkey : IsHarmless c.line key) (hcolumn : i < c.column)
    (h : ∀ {c' : Cursor} {allowKey' : Bool} {key' : Option PossibleKey},
      c' = c.skip marks.chars.length → c'.rest = rest → IsHarmless c'.line key' → i < c'.column →
      (marks.all = [] → allowKey' = allowKey ∧ c' = c) →
      Leads (outside c' (tokens ++ marks.tokens) i indents allowKey' key') t) :
    Leads (outside c tokens i indents allowKey key) t := by
  obtain ⟨allowKey', key', hleads, hharmless, hcolumn', hnone⟩ :=
    leads_marks hmarks hrest hspace hkey
      (show (i : Int) < c.column by omega)
  refine hleads.trans (h rfl (Cursor.rest_skip_length hrest) hharmless (by omega) fun hempty => ?_)
  refine ⟨hnone hempty, ?_⟩
  rw [hempty]
  rfl

theorem Written.isLexed_scalar {i : Nat} {place : Place} {marks : Marks} {isPlain : Bool}
    {text spelled : List Char} (hmarks : ∀ mark ∈ marks.all, mark.IsReadable)
    (hspelled : Spells (i + 2) spelled text isPlain) :
    (scalar marks isPlain text spelled).IsLexed i place := by
  intro c tokens indents allowKey key rest allowKey' hrest hends hkey hcolumn _
  rw [chars, List.append_assoc] at hrest
  refine leads_behindMarks hmarks hrest (.inl rfl) hkey hcolumn ?_
  rintro c' allowKey₁ key₁ hc' hline hharmless hcolumn' -
  have hscalar : Leads (outside c' (tokens ++ marks.tokens) i indents allowKey₁ key₁)
      (outside (c'.skip (1 + spelled.length)) _ i indents allowKey' none) :=
    hspelled.leads (by omega) (by omega) (by push_cast; omega) hline hends hharmless allowKey'
  rw [hc', ← Cursor.skip_add] at hscalar
  rw [hc']
  simpa [chars, Written.tokens, Nat.add_comm] using hscalar

theorem Written.isLexed_empty {i : Nat} {place : Place} {marks : Marks} (isMapping : Bool)
    (hmarks : ∀ mark ∈ marks.all, mark.IsReadable) :
    (if isMapping then map marks [] else list marks []).IsLexed i place := by
  have hchars : (if isMapping then map marks [] else list marks []).chars i place = marks.chars ++
      [' ', (emptyBrackets isMapping).1.1, (emptyBrackets isMapping).1.2] := by
    cases isMapping <;> rfl
  have htokens : (if isMapping then map marks [] else list marks []).tokens place = marks.tokens ++
      [(emptyBrackets isMapping).2.1, (emptyBrackets isMapping).2.2] := by
    cases isMapping <;> rfl
  intro c tokens indents allowKey key rest allowKey' hrest hends hkey hcolumn _
  rw [hchars, List.append_assoc] at hrest
  refine leads_behindMarks hmarks hrest (.inl rfl) hkey hcolumn ?_
  rintro c' allowKey₁ key₁ hc' hline hharmless hcolumn' -
  have hbrackets : Leads (outside c' (tokens ++ marks.tokens) i indents allowKey₁ key₁) _ :=
    leads_emptyBrackets isMapping hline hends hharmless (by omega) allowKey'
  rw [hc', ← Cursor.skip_add] at hbrackets
  rw [hchars, htokens, hc', List.length_append, ← List.append_assoc]
  exact hbrackets

/-- The first item or entry of a collection starts where its lead says. -/
theorem opens_lead {i : Nat} {place : Place} {marks : Marks} {c' : Cursor} {allowKey₁ : Bool}
    (hcolumn : place.isOpen marks = true → column = i + 2)
    (hplace : place ≠ .entry → allowKey = true ∧ c.column = i + 1)
    (hnone : marks.all = [] → allowKey₁ = allowKey ∧ c' = c) :
    Opens (place.lead marks column) column c' allowKey₁ := by
  unfold Place.lead
  split
  · rename_i hopen
    have hcolumn := hcolumn hopen
    simp only [Place.isOpen, Bool.and_eq_true, bne_iff_ne, ne_eq, List.isEmpty_iff] at hopen
    obtain ⟨hallow, hstart⟩ := hplace hopen.1
    obtain ⟨rfl, rfl⟩ := hnone hopen.2
    exact .inr ⟨hallow, 1, rfl, by omega⟩
  · exact .inl rfl

/-- Behind a block collection its end is met, if it is indented further than what stands around it. -/
theorem leads_blockEnd {i : Nat} {t : Token} {body : List Token} (hle : i ≤ column)
    (hends : LineEnds i c.rest) (allowKey' : Bool) :
    Leads
      (outside c (tokens ++ opening i column t ++ body) column (enclosing i indents column) allowKey
        none)
      (outside c (tokens ++ if i < column then t :: (body ++ [.blockEnd]) else body) i indents
        allowKey' none) := by
  rcases Nat.eq_or_lt_of_le hle with rfl | hlt
  · simpa [opening, enclosing] using
      leads_lineEnd (.refl rfl) hends (isHarmless_none _)
  · have hlt' : (i : Int) < column := Int.ofNat_lt.mpr hlt
    rw [opening, enclosing, if_pos hlt', if_pos hlt', if_pos hlt]
    have hend : (outside c (tokens ++ [t] ++ body) column (i :: indents) allowKey none).arrive = _ :=
      arrive_blockEnd hends (Int.le_refl _) hlt' (isHarmless_none _)
    rw [List.append_assoc, List.append_assoc, List.singleton_append, List.cons_append] at hend
    rw [List.append_assoc, List.singleton_append]
    exact leads_lineEnd (.refl hend) hends (isHarmless_none _)

theorem Place.le_itemColumn (place : Place) (marks : Marks) (i : Nat) :
    i ≤ place.itemColumn marks i := by
  unfold Place.itemColumn
  split <;> omega

theorem Place.itemColumn_of_isOpen {place : Place} {marks : Marks} (i : Nat)
    (h : place.isOpen marks = true) : place.itemColumn marks i = i + 2 := by
  simp only [Place.isOpen, Bool.and_eq_true, bne_iff_ne, ne_eq] at h
  have hindentless : place.isIndentless marks = false := by
    rw [Place.isIndentless, h.2]
    simpa using h.1
  rw [Place.itemColumn, hindentless, if_neg Bool.false_ne_true]

theorem Written.isLexed_list {i : Nat} {place : Place} {marks : Marks} {ws : List Written}
    (hsome : ws ≠ []) (hmarks : ∀ mark ∈ marks.all, mark.IsReadable)
    (hitems : ∀ w ∈ ws, w.IsLexed (place.itemColumn marks i) .item) :
    (list marks ws).IsLexed i place := by
  have hempty : ws.isEmpty = false := by simpa using hsome
  have hle : (i : Int) ≤ (place.itemColumn marks i : Nat) :=
    Int.ofNat_le.mpr (place.le_itemColumn marks i)
  intro c tokens indents allowKey key rest allowKey' hrest hends hkey hcolumn hplace
  rw [chars, hempty, if_neg Bool.false_ne_true] at hrest ⊢
  rw [List.append_assoc] at hrest
  refine leads_behindMarks hmarks hrest (spaceFollows_itemChars hsome ..) hkey hcolumn ?_
  rintro c' allowKey₁ key₁ rfl hline hharmless hcolumn' hnone
  have hlead := opens_lead (place.itemColumn_of_isOpen i) hplace hnone
  have hall : Leads (outside _ (tokens ++ marks.tokens) i indents allowKey₁ key₁) _ :=
    leads_items hsome hitems hlead hline (hends.mono hle) hle hharmless allowKey'
  rw [← Cursor.skip_add, ← List.length_append] at hall
  refine hall.trans ?_
  have hbehind : LineEnds i (c.skip (marks.chars ++
      itemChars (place.lead marks (place.itemColumn marks i)) (place.itemColumn marks i) ws).length).rest := by
    rw [Cursor.rest_skip_length (by rw [hrest, List.append_assoc])]
    exact hends
  have htokens : (list marks ws).tokens place = marks.tokens ++
      if i < place.itemColumn marks i then
        .blockSequenceStart :: (itemTokens ws ++ [.blockEnd])
      else itemTokens ws := by
    rw [Written.tokens, hempty, if_neg Bool.false_ne_true, Place.itemColumn]
    cases place.isIndentless marks <;> simp
  rw [htokens, ← List.append_assoc]
  exact leads_blockEnd (place.le_itemColumn marks i) hbehind allowKey'

theorem Written.isLexed_map {i : Nat} {place : Place} {marks : Marks}
    {entries : List (Bool × Written × Written)} (hsome : entries ≠ [])
    (hmarks : ∀ mark ∈ marks.all, mark.IsReadable)
    (hentries : ∀ e ∈ entries, EntryIsLexed (i + 2) e.1 e.2.1 e.2.2) :
    (map marks entries).IsLexed i place := by
  have hempty : entries.isEmpty = false := by simpa using hsome
  have hle : (i : Int) ≤ (i + 2 : Nat) := by omega
  intro c tokens indents allowKey key rest allowKey' hrest hends hkey hcolumn hplace
  rw [chars, hempty, if_neg Bool.false_ne_true] at hrest ⊢
  rw [List.append_assoc] at hrest
  refine leads_behindMarks hmarks hrest (spaceFollows_entryChars hsome ..) hkey hcolumn ?_
  rintro c' allowKey₁ key₁ rfl hline hharmless hcolumn' hnone
  have hlead := opens_lead (fun _ => rfl) hplace hnone
  have hall : Leads (outside _ (tokens ++ marks.tokens) i indents allowKey₁ key₁) _ :=
    leads_entries hsome hentries hlead hline (hends.mono hle) hle hharmless allowKey'
  rw [← Cursor.skip_add, ← List.length_append] at hall
  refine hall.trans ?_
  have hbehind : LineEnds i (c.skip (marks.chars ++
      entryChars (place.lead marks (i + 2)) (i + 2) entries).length).rest := by
    rw [Cursor.rest_skip_length (by rw [hrest, List.append_assoc])]
    exact hends
  have htokens : (map marks entries).tokens place = marks.tokens ++
      if i < i + 2 then .blockMappingStart :: (entryTokens entries ++ [.blockEnd])
      else entryTokens entries := by
    rw [Written.tokens, hempty, if_neg Bool.false_ne_true, if_pos (by omega)]
  rw [htokens, ← List.append_assoc]
  exact leads_blockEnd (by omega) hbehind allowKey'

mutual

/-- **Every readable value is read as its tokens.** -/
theorem Written.isLexed {i : Nat} {place : Place} :
    (w : Written) → w.IsReadable i place → w.IsLexed i place
  | .alias _, h => fun _ _ _ _ _ _ allowKey' hrest hends hkey hcolumn _ =>
    leads_alias h hrest hends hkey (Int.ofNat_lt.mpr hcolumn) allowKey'
  | .scalar .., ⟨hmarks, hspelled⟩ => isLexed_scalar hmarks hspelled
  | .list _ [], ⟨hmarks, _⟩ => isLexed_empty false hmarks
  | .list _ (w :: ws), ⟨hmarks, hitems⟩ =>
    isLexed_list (List.cons_ne_nil w ws) hmarks (isLexed_items (w :: ws) hitems)
  | .map _ [], ⟨hmarks, _⟩ => isLexed_empty true hmarks
  | .map _ (e :: entries), ⟨hmarks, hentries⟩ =>
    isLexed_map (List.cons_ne_nil e entries) hmarks (isLexed_entries (e :: entries) hentries)

/-- Readable items are read as their tokens. -/
theorem Written.isLexed_items {column : Nat} : (ws : List Written) → areReadable column ws →
    ∀ w ∈ ws, w.IsLexed column .item
  | [], _ => nofun
  | w :: ws, ⟨hfirst, hothers⟩ => by
    simp only [List.forall_mem_cons]
    exact ⟨w.isLexed hfirst, isLexed_items ws hothers⟩

/-- Readable entries are read as their tokens. -/
theorem Written.isLexed_entries {column : Nat} : (entries : List (Bool × Written × Written)) →
    areReadableEntries column entries → ∀ e ∈ entries, EntryIsLexed column e.1 e.2.1 e.2.2
  | [], _ => nofun
  | (isSimple, k, v) :: entries, ⟨hkey, hsimple, hvalue, hothers⟩ => by
    simp only [List.forall_mem_cons]
    exact ⟨⟨fun h => ⟨hkey, hsimple h⟩, fun _ => k.isLexed hkey, v.isLexed hvalue⟩,
      isLexed_entries entries hothers⟩

end

/-! ## Characters -/

theorem onPage_newLine (column : Nat) : ∀ ch ∈ newLine column, OnPage ch := by
  simp only [newLine, List.forall_mem_cons]
  exact ⟨.inl rfl, fun ch hch => onPage_of_mem_replicate hch⟩

theorem onPage_lead (place : Place) (marks : Marks) (column : Nat) :
    ∀ ch ∈ place.lead marks column, OnPage ch := by
  unfold Place.lead
  split
  · exact List.all_iff_forall_prop.mp (by decide)
  · exact onPage_newLine column

theorem Marks.onPage {marks : Marks} (h : ∀ mark ∈ marks.all, mark.IsReadable) :
    ∀ ch ∈ marks.chars, OnPage ch := by
  simp only [Marks.chars, List.mem_flatMap, List.mem_cons]
  rintro ch ⟨mark, hmark, rfl | hch⟩
  · exact .inr takesColumn_blank
  · exact .inr (mark.takesColumn (h mark hmark) ch hch)

mutual

/-- The characters of a readable value may stand on a page. -/
theorem Written.onPage {i : Nat} {place : Place} :
    (w : Written) → w.IsReadable i place → ∀ ch ∈ w.chars i place, OnPage ch
  | .alias name, h => by
    simp only [chars, List.forall_mem_cons]
    exact ⟨.inr takesColumn_blank, .inr (by decide), fun ch hch =>
      .inr (takesColumn_of_isNameChar (h.2 ch hch))⟩
  | .scalar marks _ _ _, ⟨hmarks, hspelled⟩ => by
    simp only [chars, List.forall_mem_append, List.forall_mem_cons]
    exact ⟨marks.onPage hmarks, .inr takesColumn_blank, hspelled.onPage⟩
  | .list marks ws, ⟨hmarks, hitems⟩ => by
    rw [chars, List.forall_mem_append]
    refine ⟨marks.onPage hmarks, ?_⟩
    split
    · exact List.all_iff_forall_prop.mp (by decide)
    · exact onPage_items (onPage_lead place marks _) ws hitems
  | .map marks entries, ⟨hmarks, hentries⟩ => by
    rw [chars, List.forall_mem_append]
    refine ⟨marks.onPage hmarks, ?_⟩
    split
    · exact List.all_iff_forall_prop.mp (by decide)
    · exact onPage_entries (onPage_lead place marks _) entries hentries

/-- The characters of readable items may stand on a page. -/
theorem Written.onPage_items {column : Nat} {lead : List Char} (hlead : ∀ ch ∈ lead, OnPage ch) :
    (ws : List Written) → areReadable column ws → ∀ ch ∈ itemChars lead column ws, OnPage ch
  | [], _ => nofun
  | w :: ws, ⟨hfirst, hothers⟩ => by
    simp only [itemChars, List.forall_mem_append, List.forall_mem_cons]
    exact ⟨hlead, .inr (by decide), w.onPage hfirst, onPage_items (onPage_newLine column) ws hothers⟩

/-- The characters of readable entries may stand on a page. -/
theorem Written.onPage_entries {column : Nat} {lead : List Char} (hlead : ∀ ch ∈ lead, OnPage ch) :
    (entries : List (Bool × Written × Written)) → areReadableEntries column entries →
      ∀ ch ∈ entryChars lead column entries, OnPage ch
  | [], _ => nofun
  | (true, k, v) :: entries, ⟨hkey, hsimple, hvalue, hothers⟩ => by
    simp only [entryChars, ↓reduceIte, List.forall_mem_append, List.forall_mem_cons]
    exact ⟨hlead, ⟨fun ch hch =>
      .inr (takesColumn_lineChars (hsimple rfl).columns ch (List.mem_of_mem_tail hch)),
      .inr (by decide), v.onPage hvalue⟩, onPage_entries (onPage_newLine column) entries hothers⟩
  | (false, k, v) :: entries, ⟨hkey, _, hvalue, hothers⟩ => by
    simp only [entryChars, Bool.false_eq_true, ↓reduceIte, List.forall_mem_append,
      List.forall_mem_cons]
    exact ⟨hlead, ⟨.inr (by decide), k.onPage hkey, onPage_newLine column, .inr (by decide),
      v.onPage hvalue⟩, onPage_entries (onPage_newLine column) entries hothers⟩

end

/-! ## The document -/

theorem OnPage.isReadable {ch : Char} (h : OnPage ch) : isReadable ch = true := by
  rcases h with rfl | h
  · rfl
  · have hbounds := h.bounds
    simp only [Yaml.isReadable, Bool.or_eq_true, Bool.and_eq_true, decide_eq_true_eq, beq_iff_eq]
    omega

theorem OnPage.ne_byteOrderMark {ch : Char} (h : OnPage ch) : ch ≠ '\ufeff' := by
  rintro rfl
  exact absurd h (by decide)

theorem tokens_eq_run {text : List Char} (h : ∀ ch ∈ text, OnPage ch) :
    Yaml.tokens text = (Lexer.run (text.length + 2) (.start text)).toList := by
  have hall : text.all Yaml.isReadable = true :=
    List.all_eq_true.mpr fun ch hch => (h ch hch).isReadable
  have hmark : ((Lexer.start text).cursor.here == '\ufeff') = false := by
    rw [beq_eq_false_iff_ne]
    cases text with
    | nil => decide
    | cons ch text => exact (h ch (by simp)).ne_byteOrderMark
  simp only [Yaml.tokens, hall, hmark, Bool.false_eq_true, ↓reduceIte]

/-- At the end of the text the outermost collection ends. -/
theorem token_end {b : Bool} (h : c.rest = []) :
    (outside c tokens 0 [-1] b none).token =
      .ok { outside c (tokens ++ [.blockEnd, .streamEnd]) (-1) [] b none with done := true } := by
  have hempty : c.rest.isEmpty = true := by rw [h]; rfl
  rw [token]
  simp only [cursor_outside, hempty, ↓reduceIte]
  simp [endStream, unwind, unwind.go, outside, inFlow, push, dropKey]

theorem beginsToken_nil : BeginsToken [] :=
  ⟨by decide, by decide, by decide, by decide, by decide⟩

/-- A run that comes to the last line break of a text ends with it. -/
theorem run_of_lastLine {text : List Char} {b : Bool}
    (h : Leads (.start text) (outside c tokens 0 [-1] b none)) (hline : c.rest = ['\n']) :
    Lexer.run (text.length + 2) (.start text) =
      (tokens ++ [Token.blockEnd, Token.streamEnd]).toArray := by
  have harrive : (outside c tokens 0 [-1] b none).arrive =
      .ok (outside (c.skip 1) tokens 0 [-1] true none) :=
    (arrive_newLine (k := 0) rfl (isHarmless_none _) hline beginsToken_nil).trans
      (congrArg _ (unwind_of_le (Int.le_refl _)))
  have hafter : (c.skip 1).rest = [] := by rw [Cursor.rest_skip, hline]; rfl
  exact run_of_leads h harrive (token_end hafter) rfl rfl (Nat.le_refl _)

/-- **The tokens of a document**, which is a mapping with an entry at least. -/
theorem tokens_document {entries : List (Bool × Written × Written)} (hsome : entries ≠ [])
    (h : Written.areReadableEntries 0 entries) :
    Yaml.tokens (Written.entryChars [] 0 entries ++ ['\n']) =
      .blockMappingStart :: (Written.entryTokens entries ++ [.blockEnd, .streamEnd]) := by
  have hpage : ∀ ch ∈ Written.entryChars [] 0 entries ++ ['\n'], OnPage ch := by
    simp only [List.forall_mem_append, List.forall_mem_singleton]
    exact ⟨Written.onPage_entries (by simp) entries h, .inl rfl⟩
  have hends : LineEnds (0 : Nat) ['\n'] := ⟨0, [], rfl, beginsToken_nil, Int.le_refl _⟩
  have hleads : Leads (.start (Written.entryChars [] 0 entries ++ ['\n'])) (outside _
      (opening (-1) 0 .blockMappingStart ++ Written.entryTokens entries) 0 [-1] true none) :=
    Written.leads_entries hsome (Written.isLexed_entries entries h) (.inr ⟨rfl, 0, rfl, rfl⟩) rfl hends
      (by decide) (isHarmless_none _) true
  rw [tokens_eq_run hpage, run_of_lastLine hleads (Cursor.rest_skip_length rfl)]
  simp [opening]

end DevMachines.Yaml
