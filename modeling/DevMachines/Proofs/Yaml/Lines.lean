import DevMachines.Proofs.Yaml.Page

/-!
# What stands on a line

The parts of a written value that do not spread over lines: the marks in front of a node, an alias,
the brackets of an empty collection, and a key in front of its colon.  From the state in front of
such a part the lexer comes to the state behind it, with the tokens of the part added.

Main statements: `leads_marks`, `leads_alias`, `leads_emptyBrackets` and `leads_key`.
-/

namespace DevMachines.Yaml

open Lexer

variable {c : Cursor} {tokens : List Token} {indent : Int} {indents : List Int} {allowKey : Bool}
  {key : Option PossibleKey} {rest : List Char}

/-! ## Marks -/

/-- A blank or a line feed follows, as it does behind every mark. -/
def SpaceFollows (cs : List Char) : Prop := cs.headD endMark = ' ' ∨ cs.headD endMark = '\n'

theorem SpaceFollows.not_isNameChar (h : SpaceFollows rest) :
    isNameChar (rest.headD endMark) = false := by
  rcases h with h | h <;> rw [h] <;> rfl

theorem takesColumn_of_isNameChar {ch : Char} (h : isNameChar ch = true) : TakesColumn ch := by
  simp only [isNameChar, Bool.or_eq_true, Bool.and_eq_true, decide_eq_true_eq, beq_iff_eq] at h
  rcases h with (((h | h) | h) | rfl) | rfl
  · exact ⟨Char.le_trans (by decide) h.1, Char.le_trans h.2 (by decide)⟩
  · exact ⟨Char.le_trans (by decide) h.1, Char.le_trans h.2 (by decide)⟩
  · exact ⟨Char.le_trans (by decide) h.1, Char.le_trans h.2 (by decide)⟩
  · decide
  · decide

theorem takesColumn_of_isAddressChar {ch : Char} (h : isAddressChar ch = true) : TakesColumn ch := by
  have hothers : ∀ ch ∈ "-;/?:@&=+$,_.!~*'()[]%".toList, TakesColumn ch :=
    List.all_iff_forall_prop.mp (by decide)
  simp only [isAddressChar, Bool.or_eq_true, Bool.and_eq_true, decide_eq_true_eq,
    List.contains_eq_mem] at h
  rcases h with ((h | h) | h) | h
  · exact ⟨Char.le_trans (by decide) h.1, Char.le_trans h.2 (by decide)⟩
  · exact ⟨Char.le_trans (by decide) h.1, Char.le_trans h.2 (by decide)⟩
  · exact ⟨Char.le_trans (by decide) h.1, Char.le_trans h.2 (by decide)⟩
  · exact hothers ch h

theorem Mark.takesColumn {mark : Mark} (h : mark.IsReadable) : ∀ ch ∈ mark.chars, TakesColumn ch := by
  cases mark with
  | anchor name =>
    simp only [Mark.chars, List.forall_mem_cons]
    exact ⟨by decide, fun ch hch => takesColumn_of_isNameChar (h.2 ch hch)⟩
  | tag name =>
    simp only [Mark.chars, List.forall_mem_cons]
    exact ⟨by decide, by decide, fun ch hch => takesColumn_of_isAddressChar (h.isAddress ch hch)⟩

theorem Mark.beginsToken (mark : Mark) (rest : List Char) : BeginsToken (mark.chars ++ rest) := by
  cases mark with
  | anchor name => exact beginsToken_cons (by decide) (by decide) _
  | tag name => exact beginsToken_cons (by decide) (by decide) _

theorem Mark.token_eq {mark : Mark} (h : mark.IsReadable) (hrest : c.rest = mark.chars ++ rest)
    (hspace : SpaceFollows rest) (hkey : allowKey = true → IsOptional key) :
    (outside c tokens indent indents allowKey key).token =
      .ok (outside (c.skip mark.chars.length) (tokens ++ [mark.token]) indent indents false
        (keyAfter c tokens indent allowKey key)) := by
  have hbegins := mark.beginsToken rest
  rw [← hrest] at hbegins
  cases mark with
  | anchor name =>
    refine token_anchor hbegins hkey hrest h.1 h.2 hspace.not_isNameChar ?_
    rcases hspace with h | h <;> rw [h] <;> rfl
  | tag name =>
    refine token_tag hbegins hkey hrest h ?_ ?_
    · rcases hspace with h | h <;> rw [h] <;> decide
    · rcases hspace with h | h <;> rw [h] <;> rfl

/-- The characters of marks, each behind a blank. -/
def markChars (marks : List Mark) : List Char := marks.flatMap fun mark => ' ' :: mark.chars

theorem spaceFollows_markChars (marks : List Mark) (h : SpaceFollows rest) :
    SpaceFollows (markChars marks ++ rest) := by
  cases marks with
  | nil => exact h
  | cons mark marks => exact .inl rfl

/-- Marks behind blanks are read one by one. -/
theorem leads_marks {marks : List Mark} (h : ∀ mark ∈ marks, mark.IsReadable)
    (hrest : c.rest = markChars marks ++ rest) (hspace : SpaceFollows rest)
    (hkey : IsHarmless c.line key) (hcolumn : indent < c.column) :
    ∃ allowKey' key',
      Leads (outside c tokens indent indents allowKey key)
        (outside (c.skip (markChars marks).length) (tokens ++ marks.map Mark.token) indent indents
          allowKey' key') ∧
      IsHarmless (c.skip (markChars marks).length).line key' ∧
      indent < (c.skip (markChars marks).length).column ∧
      (marks = [] → allowKey' = allowKey) := by
  induction marks generalizing c tokens allowKey key with
  | nil => exact ⟨allowKey, key, by simpa [markChars] using .refl rfl, hkey, hcolumn, fun _ => rfl⟩
  | cons mark marks ih =>
    simp only [List.forall_mem_cons] at h
    have hfirst : c.rest = List.replicate 1 ' ' ++ (mark.chars ++ (markChars marks ++ rest)) := by
      rw [hrest]
      simp [markChars]
    have hblank := Cursor.skip_blanks hfirst
    have hspace' := spaceFollows_markChars marks hspace
    have harrive : (outside c tokens indent indents allowKey key).arrive = _ :=
      arrive_blanks hkey hfirst (mark.beginsToken _) (by omega)
    have hfresh : IsHarmless (c.skip 1).line (freshKey (c.skip 1) key) := by
      rw [hblank]
      exact hkey.freshKey _
    have hrest' : (c.skip 1).rest = mark.chars ++ (markChars marks ++ rest) := by rw [hblank]
    have hcolumn' : indent < (c.skip 1).column := by
      rw [hblank]
      push_cast
      omega
    have htoken : (outside (c.skip 1) tokens indent indents allowKey _).token = _ :=
      mark.token_eq h.1 hrest' hspace' fun _ => hfresh.isOptional
    have hskip := Cursor.skip_columns hrest' (mark.takesColumn h.1)
    have hnoted : IsHarmless (c.skip 1).line (keyAfter (c.skip 1) tokens indent allowKey _) :=
      isHarmless_keyAfter hfresh hcolumn'
    obtain ⟨allowKey', key', hleads, hharmless, hlast, -⟩ : ∃ allowKey' key',
        Leads (outside ((c.skip 1).skip mark.chars.length) (tokens ++ [mark.token]) indent indents false
          _) _ ∧ _ :=
      ih h.2 (by rw [hskip]) (hnoted.mono (Cursor.line_le_skip _ _)) (by rw [hskip]; push_cast; omega)
    have hlength : (markChars (mark :: marks)).length = 1 + mark.chars.length + (markChars marks).length := by
      simp [markChars]
      omega
    rw [hlength, Cursor.skip_add, Cursor.skip_add]
    refine ⟨allowKey', key', ?_, hharmless, hlast, nofun⟩
    have hpos : 0 < mark.chars.length := by cases mark <;> simp [Mark.chars]
    refine .step harrive htoken rfl ?_ ?_
    · show ((c.skip 1).skip mark.chars.length).rest.length < (c.skip 1).rest.length
      rw [hskip, hrest']
      simp only [List.length_append]
      omega
    · simpa using hleads

/-! ## Values without parts -/

/-- Where a line ends, what the lexer remembers of it does not matter. -/
theorem leads_lineEnd {s : Lexer} {limit : Int} {allowKey' : Bool} (h : Leads s (outside c tokens indent indents allowKey key))
    (hends : LineEnds limit c.rest) (hkey : IsHarmless c.line key) :
    Leads s (outside c tokens indent indents allowKey' none) :=
  h.trans (.refl (arrive_lineEnd hends hkey (isHarmless_none _)))

theorem Lexer.LineEnds.spaceFollows {limit : Int} (h : LineEnds limit rest) : SpaceFollows rest := by
  obtain ⟨k, more, rfl, -⟩ := h
  exact .inr rfl

theorem Lexer.LineEnds.mono {limit limit' : Int} (h : LineEnds limit rest) (hle : limit ≤ limit') :
    LineEnds limit' rest := by
  obtain ⟨k, more, hrest, hbegins, hk⟩ := h
  exact ⟨k, more, hrest, hbegins, by omega⟩

/-- An alias at the end of a line. -/
theorem leads_alias {limit : Int} {name : List Char} (hname : (Mark.anchor name).IsReadable)
    (hrest : c.rest = ' ' :: '*' :: (name ++ rest)) (hends : LineEnds limit rest)
    (hkey : IsHarmless c.line key) (hcolumn : indent < c.column) (allowKey' : Bool) :
    Leads (outside c tokens indent indents allowKey key)
      (outside (c.skip (name.length + 2)) (tokens ++ [.alias (String.ofList name)]) indent indents
        allowKey' none) := by
  have hspace := hends.spaceFollows
  have hfirst : c.rest = List.replicate 1 ' ' ++ '*' :: (name ++ rest) := hrest
  have hblank := Cursor.skip_blanks hfirst
  have hrest' : (c.skip 1).rest = '*' :: (name ++ rest) := by rw [hblank]
  have hbegins : BeginsToken (c.skip 1).rest := by
    rw [hrest']
    exact beginsToken_cons (by decide) (by decide) _
  have harrive : (outside c tokens indent indents allowKey key).arrive = _ :=
    arrive_blanks hkey hfirst (hrest' ▸ hbegins) (by omega)
  have hfresh : IsHarmless (c.skip 1).line (freshKey (c.skip 1) key) := by
    rw [hblank]
    exact hkey.freshKey _
  have htoken : (outside (c.skip 1) tokens indent indents allowKey _).token = _ :=
    token_alias hbegins (fun _ => hfresh.isOptional) hrest' hname.1 hname.2 hspace.not_isNameChar
      (by rcases hspace with h | h <;> rw [h] <;> rfl)
  have hskip : c.skip (name.length + 2) = (c.skip 1).skip (name.length + 1) := by
    rw [← Cursor.skip_add]
    congr 1
    omega
  have hafter : ((c.skip 1).skip ('*' :: name).length).rest = rest := Cursor.rest_skip_length hrest'
  rw [List.length_cons] at hafter
  rw [hskip]
  refine leads_lineEnd (.single harrive htoken rfl ?_) (hafter.symm ▸ hends)
    ((isHarmless_keyAfter hfresh ?_).mono (Cursor.line_le_skip _ _))
  · show ((c.skip 1).skip (name.length + 1)).rest.length < (c.skip 1).rest.length
    rw [hafter, hrest']
    simp only [List.length_cons, List.length_append]
    omega
  · rw [hblank]
    push_cast
    omega

/-- A state between two brackets. -/
def inBrackets (c : Cursor) (tokens : List Token) (indent : Int) (indents : List Int)
    (key : Option PossibleKey) : Lexer :=
  { cursor := c, tokens := tokens.toArray, indent, indents, allowKey := true, keys := [none, key]
    done := false }

theorem openFlow_outside (t : Token) (hkey : IsOptional key) :
    (outside c tokens indent indents allowKey key).openFlow t =
      .ok (inBrackets (c.skip 1) (tokens ++ [t]) indent indents
        (keyAfter c tokens indent allowKey key)) := by
  rw [openFlow, noteKey_outside fun _ => hkey, ok_bind, pushAcross_outside]
  rfl

theorem closeFlow_inBrackets (t : Token) :
    (inBrackets c tokens indent indents key).closeFlow t =
      .ok (outside (c.skip 1) (tokens ++ [t]) indent indents false key) := by
  simp [closeFlow, dropKey, inBrackets, outside, pushAcross, push, inFlow]

/-- Between the two brackets of an empty collection nothing happens. -/
theorem arrive_inBrackets (hrest : BeginsToken c.rest) (hkey : IsOptional key) :
    (inBrackets c tokens indent indents key).arrive =
      .ok (inBrackets c tokens indent indents (freshKey c key)) := by
  have hoptional : key.any (·.required) = false := by
    cases key with
    | none => rfl
    | some k => exact hkey k rfl
  have hskip : (inBrackets c tokens indent indents key).skipToToken (c.rest.length + 1) = _ :=
    skipToToken_sameLine (n := 0) rfl hrest
  have hdrop : (inBrackets c tokens indent indents key).dropStaleKeys =
      .ok (inBrackets c tokens indent indents (freshKey c key)) := by
    simp [dropStaleKeys, inBrackets, hoptional, freshKey]
    rfl
  rw [arrive]
  refine (congrArg (fun s : Lexer => s.dropStaleKeys.map fun s => s.unwind s.cursor.column) hskip).trans ?_
  exact congrArg (Except.map fun s => s.unwind s.cursor.column) hdrop

/-- The brackets of an empty collection, and their tokens. -/
def emptyBrackets (isMapping : Bool) : (Char × Char) × (Token × Token) :=
  if isMapping then (('\x7b', '\x7d'), (.flowMappingStart, .flowMappingEnd))
  else (('[', ']'), (.flowSequenceStart, .flowSequenceEnd))

theorem token_openBracket (isMapping : Bool) (hbegins : BeginsToken c.rest) (hkey : IsOptional key)
    (h : c.rest = (emptyBrackets isMapping).1.1 :: rest) :
    (outside c tokens indent indents allowKey key).token =
      .ok (inBrackets (c.skip 1) (tokens ++ [(emptyBrackets isMapping).2.1]) indent indents
        (keyAfter c tokens indent allowKey key)) := by
  have hempty : c.rest.isEmpty = false := by rw [h]; rfl
  rw [← openFlow_outside _ hkey]
  cases isMapping <;>
    simp [token, outside, emptyBrackets, Cursor.here_eq h, hempty, atMarker_of_beginsToken hbegins]

theorem token_closeBracket (isMapping : Bool) (hbegins : BeginsToken c.rest)
    (h : c.rest = (emptyBrackets isMapping).1.2 :: rest) :
    (inBrackets c tokens indent indents key).token =
      .ok (outside (c.skip 1) (tokens ++ [(emptyBrackets isMapping).2.2]) indent indents false key) := by
  have hempty : c.rest.isEmpty = false := by rw [h]; rfl
  rw [← closeFlow_inBrackets]
  cases isMapping <;>
    simp [token, inBrackets, emptyBrackets, Cursor.here_eq h, hempty, atMarker_of_beginsToken hbegins]

/-- An empty collection at the end of a line. -/
theorem leads_emptyBrackets (isMapping : Bool) {limit : Int}
    (hrest : c.rest = ' ' :: (emptyBrackets isMapping).1.1 :: (emptyBrackets isMapping).1.2 :: rest)
    (hends : LineEnds limit rest) (hkey : IsHarmless c.line key) (hcolumn : indent < c.column)
    (allowKey' : Bool) :
    Leads (outside c tokens indent indents allowKey key)
      (outside (c.skip 3) (tokens ++ [(emptyBrackets isMapping).2.1, (emptyBrackets isMapping).2.2])
        indent indents allowKey' none) := by
  have hfirst : c.rest = List.replicate 1 ' ' ++
      (emptyBrackets isMapping).1.1 :: (emptyBrackets isMapping).1.2 :: rest := hrest
  have hblank := Cursor.skip_blanks hfirst
  have hopening : (c.skip 1).rest =
      (emptyBrackets isMapping).1.1 :: (emptyBrackets isMapping).1.2 :: rest := by rw [hblank]
  have hclosing : (c.skip 2).rest = (emptyBrackets isMapping).1.2 :: rest := by
    rw [Cursor.rest_skip, hrest]; rfl
  have hafter : (c.skip 3).rest = rest := by rw [Cursor.rest_skip, hrest]; rfl
  have hbegins : BeginsToken (c.skip 1).rest := by
    rw [hopening]
    cases isMapping <;> exact beginsToken_cons (by decide) (by decide) _
  have hbegins' : BeginsToken (c.skip 2).rest := by
    rw [hclosing]
    cases isMapping <;> exact beginsToken_cons (by decide) (by decide) _
  have harrive : (outside c tokens indent indents allowKey key).arrive = _ :=
    arrive_blanks hkey hfirst (hopening ▸ hbegins) (by omega)
  have hfresh : IsHarmless (c.skip 1).line (freshKey (c.skip 1) key) := by
    rw [hblank]
    exact hkey.freshKey _
  have hnoted : IsHarmless (c.skip 1).line (keyAfter (c.skip 1) tokens indent allowKey _) :=
    isHarmless_keyAfter hfresh (by rw [hblank]; push_cast; omega)
  have hmore := (hnoted.freshKey (c.skip 2)).mono
    (Nat.le_trans (Cursor.line_le_skip 1 (c.skip 1)) (Cursor.line_le_skip 1 (c.skip 2)))
  have hopen : (outside (c.skip 1) tokens indent indents allowKey _).token = _ :=
    token_openBracket isMapping hbegins hfresh.isOptional hopening
  have hbetween : (inBrackets (c.skip 2) (tokens ++ [(emptyBrackets isMapping).2.1]) indent indents
      (keyAfter (c.skip 1) tokens indent allowKey (freshKey (c.skip 1) key))).arrive = _ :=
    arrive_inBrackets hbegins' hnoted.isOptional
  have hclose : (inBrackets (c.skip 2) (tokens ++ [(emptyBrackets isMapping).2.1]) indent indents
      (freshKey (c.skip 2) (keyAfter (c.skip 1) tokens indent allowKey (freshKey (c.skip 1) key)))).token =
        _ := token_closeBracket isMapping hbegins' hclosing
  rw [List.append_assoc] at hclose
  have hlast := Leads.single hbetween hclose rfl (by
    show (c.skip 3).rest.length < (c.skip 2).rest.length
    rw [hafter, hclosing, List.length_cons]
    omega)
  refine leads_lineEnd (.step harrive hopen rfl ?_ hlast) (hafter.symm ▸ hends) hmore
  show (c.skip 2).rest.length < (c.skip 1).rest.length
  simp only [hclosing, hopening, List.length_cons]
  omega

/-! ## Simple keys -/

/-- A word of a line that is read as one token, wherever it stands in front of `rest`. -/
structure ReadsAs (indent : Int) (word : List Char) (t : Token) (rest : List Char) : Prop where
  nonempty : word ≠ []
  columns : ∀ ch ∈ word, TakesColumn ch
  begins : BeginsToken (word ++ rest)
  token_eq : ∀ {c : Cursor} {tokens : List Token} {indents : List Int} {allowKey : Bool}
    {key : Option PossibleKey}, c.rest = word ++ rest → indent ≤ c.column →
    (allowKey = true → IsOptional key) →
    (outside c tokens indent indents allowKey key).token =
      .ok (outside (c.skip word.length) (tokens ++ [t]) indent indents false
        (keyAfter c tokens indent allowKey key))

/-- Words that are read one by one in front of `rest`. -/
def AreWords (indent : Int) : List (List Char × Token) → List Char → Prop
  | [], _ => True
  | (word, t) :: words, rest =>
      ReadsAs indent word t (Written.lineChars words ++ rest) ∧ AreWords indent words rest

theorem Mark.readsAs {mark : Mark} (h : mark.IsReadable) (hspace : SpaceFollows rest) :
    ReadsAs indent mark.chars mark.token rest where
  nonempty := by cases mark <;> exact List.cons_ne_nil _ _
  columns := mark.takesColumn h
  begins := mark.beginsToken rest
  token_eq hrest _ hkey := mark.token_eq h hrest hspace hkey

theorem readsAs_alias {name : List Char} (h : (Mark.anchor name).IsReadable) :
    ReadsAs indent ('*' :: name) (.alias (String.ofList name)) (':' :: rest) where
  nonempty := List.cons_ne_nil _ _
  columns := by
    simp only [List.forall_mem_cons]
    exact ⟨by decide, fun ch hch => takesColumn_of_isNameChar (h.2 ch hch)⟩
  begins := beginsToken_cons (by decide) (by decide) _
  token_eq hrest _ hkey :=
    token_alias (hrest ▸ beginsToken_cons (by decide) (by decide) _) hkey hrest h.1 h.2 rfl rfl

theorem Spells.readsAs {column : Nat} {spelled text : List Char} {isPlain : Bool}
    (h : Spells (column + 2) spelled text isPlain) (hcolumns : ∀ ch ∈ spelled, TakesColumn ch)
    (hindent : indent ≤ column) (hrest : blankNext rest = true) :
    ReadsAs indent spelled (.scalar (String.ofList text) isPlain) (':' :: rest) where
  nonempty := List.ne_nil_of_length_pos h.length_pos
  columns := hcolumns
  begins := h.beginsToken (.inl rfl)
  token_eq hchars hcolumn hkey :=
    h.token_key hcolumns (by omega) (by push_cast; omega) hcolumn hchars hrest hkey

/-- The words of a simple key are read one by one in front of its colon. -/
theorem Written.areWords {column : Nat} {w : Written} (h : w.IsReadable column .part)
    (hsimple : w.IsSimpleKey) (hindent : indent ≤ column) (hrest : blankNext rest = true) :
    AreWords indent w.words (':' :: rest) := by
  match w, h, hsimple with
  | .alias name, h, _ => exact ⟨readsAs_alias h, trivial⟩
  | .scalar marks isPlain text spelled, h, hsimple =>
    obtain ⟨hmarks, hspelled⟩ := h
    have hlast : ReadsAs indent spelled (.scalar (String.ofList text) isPlain) (':' :: rest) :=
      hspelled.readsAs (hsimple.columns _ (List.mem_append_right _ (List.mem_singleton_self _)))
        hindent hrest
    have hall : ∀ all : List Mark, (∀ mark ∈ all, mark.IsReadable) →
        AreWords indent (all.map (fun mark => (mark.chars, mark.token)) ++
          [(spelled, .scalar (String.ofList text) isPlain)]) (':' :: rest) := by
      intro all
      induction all with
      | nil => exact fun _ => ⟨hlast, trivial⟩
      | cons mark all ih =>
        intro hall
        simp only [List.forall_mem_cons] at hall
        refine ⟨mark.readsAs hall.1 (.inl ?_), ih hall.2⟩
        cases all <;> rfl
    exact hall _ hmarks
  | .list .., _, hsimple => exact absurd rfl hsimple.nonempty
  | .map .., _, hsimple => exact absurd rfl hsimple.nonempty

theorem takesColumn_lineChars {words : List (List Char × Token)}
    (h : ∀ word ∈ words, ∀ ch ∈ word.1, TakesColumn ch) :
    ∀ ch ∈ Written.lineChars words, TakesColumn ch := by
  simp only [Written.lineChars, List.mem_flatMap, List.mem_cons]
  rintro ch ⟨word, hword, rfl | hch⟩
  · exact takesColumn_blank
  · exact h word hword ch hch

theorem AreWords.columns {words : List (List Char × Token)} (h : AreWords indent words rest) :
    ∀ word ∈ words, ∀ ch ∈ word.1, TakesColumn ch := by
  induction words with
  | nil => nofun
  | cons word words ih =>
    simp only [List.forall_mem_cons]
    exact ⟨h.1.columns, ih h.2⟩

/-- A possible key on the same line, not far behind, stays possible. -/
theorem arrive_fresh {n : Nat} {k : PossibleKey} (h : c.rest = List.replicate n ' ' ++ rest)
    (hrest : BeginsToken rest) (hcolumn : indent ≤ c.column) (hline : k.line = c.line)
    (hshort : c.index + n ≤ k.index + 1024) :
    (outside c tokens indent indents false (some k)).arrive =
      .ok (outside (c.skip n) tokens indent indents false (some k)) := by
  have hstale : isStale (c.skip n) k = false := by
    simp only [isStale, Cursor.skip_blanks h, hline, bne_self_eq_false, Bool.false_or,
      decide_eq_false_iff_not]
    omega
  have hfresh : freshKey (c.skip n) (some k) = some k := by
    rw [freshKey, Option.any_some, hstale, if_neg Bool.false_ne_true]
  have harrive := arrive_sameLine (s := outside c tokens indent indents false (some k)) rfl h hrest
    (fun k' hk' hstale' => by
      obtain rfl := Option.some.inj hk'
      rw [cursor_outside, hstale] at hstale'
      cases hstale')
    (by show indent ≤ c.column + n; omega)
  rw [harrive, cursor_outside, hfresh]
  rfl

/-- Behind the first word of a key the others are read, and the possible key stays the same. -/
theorem leads_words {words : List (List Char × Token)} {k : PossibleKey}
    (h : AreWords indent words rest) (hrest : c.rest = Written.lineChars words ++ rest)
    (hcolumn : indent ≤ c.column) (hline : k.line = c.line)
    (hshort : c.index + (Written.lineChars words).length ≤ k.index + 1024) :
    Leads (outside c tokens indent indents false (some k))
      (outside (c.skip (Written.lineChars words).length) (tokens ++ words.map (·.2)) indent indents
        false (some k)) := by
  induction words generalizing c tokens with
  | nil => simpa [Written.lineChars] using .refl rfl
  | cons word words ih =>
    obtain ⟨word, t⟩ := word
    obtain ⟨hfirst, hothers⟩ := h
    have hchars : Written.lineChars ((word, t) :: words) =
        ' ' :: (word ++ Written.lineChars words) := by simp [Written.lineChars]
    rw [hchars] at hrest hshort ⊢
    have hblank : c.rest = List.replicate 1 ' ' ++ (word ++ (Written.lineChars words ++ rest)) := by
      rw [hrest]
      simp
    simp only [List.length_cons, List.length_append] at hshort
    have hskip := Cursor.skip_blanks hblank
    have harrive : (outside c tokens indent indents false (some k)).arrive = _ :=
      arrive_fresh hblank hfirst.begins hcolumn hline (by omega)
    have hword : (c.skip 1).rest = word ++ (Written.lineChars words ++ rest) := by rw [hskip]
    have htoken : (outside (c.skip 1) tokens indent indents false (some k)).token = _ :=
      hfirst.token_eq hword (by rw [hskip]; push_cast; omega) nofun
    have hafter := Cursor.skip_columns hword hfirst.columns
    have hlength : (' ' :: (word ++ Written.lineChars words)).length =
        1 + word.length + (Written.lineChars words).length := by
      simp only [List.length_cons, List.length_append]
      omega
    have hmore : Leads (outside ((c.skip 1).skip word.length) (tokens ++ [t]) indent indents false _) _ :=
      ih hothers (by rw [hafter]) (by rw [hafter, hskip]; push_cast; omega)
        (by rw [hafter, hskip]; exact hline) (by rw [hafter, hskip]; simp only; omega)
    rw [hlength, Cursor.skip_add, Cursor.skip_add]
    refine .step harrive htoken rfl ?_ ?_
    · show ((c.skip 1).skip word.length).rest.length < (c.skip 1).rest.length
      have hpos := List.length_pos_of_ne_nil hfirst.nonempty
      rw [hafter, hword]
      simp only [List.length_append]
      omega
    · simpa [keyAfter] using hmore

/-- **A simple key and its colon**: the mapping may start at the key. -/
theorem leads_key {s : Lexer} {words : List (List Char × Token)} (hsome : words ≠ [])
    (harrive : s.arrive = .ok (outside c tokens indent indents true key)) (hkey : IsOptional key)
    (hrest : c.rest = (Written.lineChars words).tail ++ ':' :: rest)
    (h : AreWords indent words (':' :: rest)) (hcolumn : indent ≤ c.column)
    (hshort : (Written.lineChars words).length ≤ 1025) (hblank : blankNext rest = true) :
    Leads s (outside (c.skip (Written.lineChars words).length)
      (tokens ++ opening indent c.column .blockMappingStart ++ [.key] ++ words.map (·.2) ++ [.value])
      (innermost indent c.column) (enclosing indent indents c.column) false none) := by
  obtain ⟨⟨word, t⟩, words, rfl⟩ := List.exists_cons_of_ne_nil hsome
  obtain ⟨hfirst, hothers⟩ := h
  have hchars : Written.lineChars ((word, t) :: words) =
      ' ' :: (word ++ Written.lineChars words) := by simp [Written.lineChars]
  rw [hchars] at hrest hshort ⊢
  rw [List.tail_cons, List.append_assoc] at hrest
  simp only [List.length_cons, List.length_append] at hshort
  have htoken : (outside c tokens indent indents true key).token = _ :=
    hfirst.token_eq hrest hcolumn fun _ => hkey
  have hafter := Cursor.skip_columns hrest hfirst.columns
  have hmore : Leads (outside (c.skip word.length) (tokens ++ [t]) indent indents false
      (some (keyAt c tokens indent))) _ :=
    leads_words hothers (by rw [hafter]) (by rw [hafter]; push_cast; omega) (by rw [hafter]; rfl)
      (by rw [hafter]; simp only [keyAt]; omega)
  rw [← Cursor.skip_add] at hmore
  -- Behind the words the colon is next, and the possible key is not stale yet.
  have hcolon : (c.skip (word.length + (Written.lineChars words).length)).rest = ':' :: rest := by
    rw [Cursor.skip_add, Cursor.rest_skip_length (c := c.skip word.length) (by rw [hafter])]
  rw [← List.append_assoc] at hrest
  have hskip := Cursor.skip_columns hrest (by
    simp only [List.forall_mem_append]
    exact ⟨hfirst.columns, takesColumn_lineChars hothers.columns⟩)
  rw [List.length_append] at hskip
  have hbegins : BeginsToken (c.skip (word.length + (Written.lineChars words).length)).rest := by
    rw [hcolon]
    exact beginsToken_cons (by decide) (by decide) _
  have harrive' : (outside _ (tokens ++ [t] ++ words.map (·.2)) indent indents false
      (some (keyAt c tokens indent))).arrive = _ :=
    arrive_fresh (n := 0) rfl hbegins (by rw [hskip]; push_cast; omega) (by rw [hskip]; rfl)
      (by rw [hskip]; simp only [keyAt]; omega)
  have hvalue : (outside _ (tokens ++ [t] ++ words.map (·.2)) indent indents false
      (some (keyAt c tokens indent))).token = _ := token_colon hbegins hcolon hblank
  have htoken' := hvalue.trans ((congrArg (fun ts => (outside _ ts indent indents false _).entryValue)
    (List.append_assoc ..)).trans (entryValue_key rfl))
  have hcolonStep := Leads.single harrive' htoken' rfl (by
    show ((c.skip (word.length + (Written.lineChars words).length)).skip 1).rest.length <
      (c.skip (word.length + (Written.lineChars words).length)).rest.length
    rw [Cursor.rest_skip, hcolon]
    simp)
  have hall := Leads.step harrive htoken rfl (by
    show (c.skip word.length).rest.length < c.rest.length
    have hpos := List.length_pos_of_ne_nil hfirst.nonempty
    rw [hafter, hrest]
    simp only [List.length_append]
    omega) (hmore.trans hcolonStep)
  rw [← Cursor.skip_add] at hall
  simpa [keyAt] using hall

end DevMachines.Yaml
