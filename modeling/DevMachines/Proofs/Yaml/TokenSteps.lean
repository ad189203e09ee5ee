import DevMachines.Proofs.Yaml.Arrival
import DevMachines.Proofs.Yaml.BlockText
import DevMachines.Proofs.Yaml.PlainText
import DevMachines.Proofs.Yaml.QuotedText

/-!
# What one token does

The written form of a value has few kinds of token, and none of it is inside brackets but the two
brackets of an empty collection.  For each kind there is one lemma: from a state `outside` all
brackets, on the token, the lexer comes to another such state.
-/

namespace DevMachines.Yaml
namespace Lexer

/-- A state outside all brackets. -/
def outside (c : Cursor) (tokens : List Token) (indent : Int) (indents : List Int) (allowKey : Bool)
    (key : Option PossibleKey) : Lexer :=
  { cursor := c, tokens := tokens.toArray, indent, indents, allowKey, keys := [key], done := false }

variable {c : Cursor} {tokens : List Token} {indent : Int} {indents : List Int} {allowKey : Bool}
  {key : Option PossibleKey} {rest : List Char}

/-- Need a possible key not be one? -/
def IsOptional (key : Option PossibleKey) : Prop := ∀ k ∈ key, k.required = false

theorem isOptional_none : IsOptional none := nofun

theorem dropKey_outside (h : IsOptional key) :
    (outside c tokens indent indents allowKey key).dropKey =
      .ok (outside c tokens indent indents allowKey none) := by
  have hoptional : key.any (·.required) = false := by
    cases key with
    | none => rfl
    | some k => exact h k rfl
  simp only [dropKey, outside, hoptional, Bool.false_eq_true, ↓reduceIte]

/-- The possible key that starts at a place. -/
def keyAt (c : Cursor) (tokens : List Token) (indent : Int) : PossibleKey :=
  { position := tokens.length, required := indent == c.column
    index := c.index, line := c.line, column := c.column }

/-- The possible key after a token that may be one. -/
def keyAfter (c : Cursor) (tokens : List Token) (indent : Int) (allowKey : Bool)
    (key : Option PossibleKey) : Option PossibleKey :=
  if allowKey then some (keyAt c tokens indent) else key

theorem noteKey_outside (h : allowKey = true → IsOptional key) :
    (outside c tokens indent indents allowKey key).noteKey =
      .ok (outside c tokens indent indents allowKey (keyAfter c tokens indent allowKey key)) := by
  cases allowKey with
  | false => rfl
  | true =>
    have hdrop : (outside c tokens indent indents true key).dropKey = _ := dropKey_outside (h rfl)
    have hallow : (outside c tokens indent indents true key).allowKey = true := rfl
    simp only [noteKey, hallow, ↓reduceIte, hdrop, ok_bind]
    simp [outside, keyAfter, keyAt, inFlow]
    rfl

/-! ## Arriving -/

theorem IsHarmless.isOptional {line : Nat} (h : IsHarmless line key) : IsOptional key :=
  fun k hk => (h k hk).1

theorem isHarmless_none (line : Nat) : IsHarmless line none := nofun

theorem IsHarmless.mono {line line' : Nat} (h : IsHarmless line key) (hle : line ≤ line') :
    IsHarmless line' key :=
  fun k hk => ⟨(h k hk).1, Nat.le_trans (h k hk).2 hle⟩

theorem IsHarmless.freshKey {line : Nat} (h : IsHarmless line key) (c : Cursor) :
    IsHarmless line (freshKey c key) := by
  unfold Lexer.freshKey
  split
  · exact isHarmless_none line
  · exact h

/-- A token further in than the innermost collection need not be a key. -/
theorem isHarmless_keyAfter (h : IsHarmless c.line key) (hcolumn : indent < c.column) :
    IsHarmless c.line (keyAfter c tokens indent allowKey key) := by
  cases allowKey with
  | false => exact h
  | true =>
    rintro k hk
    obtain rfl := Option.some.inj hk
    have hne : (indent == (c.column : Int)) = false := beq_eq_false_iff_ne.mpr (by omega)
    exact ⟨hne, Nat.le_refl _⟩

theorem arrive_blanks {n : Nat} (hkey : IsHarmless c.line key)
    (h : c.rest = List.replicate n ' ' ++ rest) (hrest : BeginsToken rest)
    (hindent : indent ≤ c.column + n) :
    (outside c tokens indent indents allowKey key).arrive =
      .ok (outside (c.skip n) tokens indent indents allowKey (freshKey (c.skip n) key)) :=
  arrive_sameLine rfl h hrest (fun k hk _ => (hkey k hk).1) hindent

/-- The text goes on, or ends, on another line that is indented by at most `limit` columns. -/
def LineEnds (limit : Int) (cs : List Char) : Prop :=
  ∃ (k : Nat) (rest : List Char),
    cs = '\n' :: (List.replicate k ' ' ++ rest) ∧ BeginsToken rest ∧ k ≤ limit

theorem arrive_nextLine {k : Nat} (h : c.rest = '\n' :: (List.replicate k ' ' ++ rest))
    (hrest : BeginsToken rest) (hkey : IsHarmless c.line key) :
    (outside c tokens indent indents allowKey key).arrive =
      .ok (unwind k (outside (c.skip (k + 1)) tokens indent indents true none)) :=
  arrive_newLine rfl hkey h hrest

/-- Where a line ends it does not matter which key was possible on it. -/
theorem arrive_lineEnd {limit : Int} {key' : Option PossibleKey} {allowKey' : Bool}
    (h : LineEnds limit c.rest) (hkey : IsHarmless c.line key) (hkey' : IsHarmless c.line key') :
    (outside c tokens indent indents allowKey key).arrive =
      (outside c tokens indent indents allowKey' key').arrive := by
  obtain ⟨k, rest, hrest, hbegins, -⟩ := h
  rw [arrive_nextLine hrest hbegins hkey, arrive_nextLine hrest hbegins hkey']

/-- A scalar may have been read up to the next line already. -/
theorem arrive_behindLine {k : Nat} (h : c.rest = '\n' :: (List.replicate k ' ' ++ rest))
    (hrest : BeginsToken rest) (hkey : IsHarmless c.line key) :
    (outside (c.skip (k + 1)) tokens indent indents true key).arrive =
      (outside c tokens indent indents allowKey none).arrive := by
  have hline := Cursor.skip_newline h
  rw [arrive_nextLine h hrest (isHarmless_none _), arrive_lineStart rfl ⟨c.line, ?_, hkey⟩ rfl ?_]
  · have hcolumn : (c.skip (k + 1)).column = k := by rw [hline]
    show Except.ok (unwind (c.skip (k + 1)).column _) = _
    rw [hcolumn]
    rfl
  · show c.line < (c.skip (k + 1)).line
    rw [hline]
    exact Nat.lt_succ_self _
  · show BeginsToken (c.skip (k + 1)).rest
    rwa [hline]

/-- A block collection ends with the line of its last item. -/
theorem arrive_blockEnd {outer limit : Int} (h : LineEnds limit c.rest) (hlimit : limit ≤ outer)
    (houter : outer < indent) (hkey : IsHarmless c.line key) :
    (outside c tokens indent (outer :: indents) allowKey key).arrive =
      (outside c (tokens ++ [.blockEnd]) outer indents allowKey key).arrive := by
  obtain ⟨k, rest, hrest, hbegins, hk⟩ := h
  rw [arrive_nextLine hrest hbegins hkey, arrive_nextLine hrest hbegins hkey]
  refine congrArg _ ((unwind_of_lt rfl rfl ?_).trans ?_)
  · show (k : Int) < indent
    omega
  · simp [outside, push]

/-! ## Items and entries -/

/-- The tokens that start a block collection at a column, if one starts there. -/
def opening (indent : Int) (column : Nat) (t : Token) : List Token :=
  if indent < column then [t] else []

/-- The innermost indentation after a collection may have started at a column. -/
def innermost (indent : Int) (column : Nat) : Int := if indent < column then column else indent

/-- The indentations around it. -/
def enclosing (indent : Int) (indents : List Int) (column : Nat) : List Int :=
  if indent < column then indent :: indents else indents

theorem openBlock_outside (t : Token) :
    (outside c tokens indent indents allowKey key).openBlock t =
      outside c (tokens ++ opening indent c.column t) (innermost indent c.column)
        (enclosing indent indents c.column) allowKey key := by
  simp only [openBlock, indentTo, outside, opening, innermost, enclosing]
  by_cases h : indent < c.column
  · simp [h, push]
  · simp [h]

theorem atMarker_of_beginsToken (h : BeginsToken c.rest) :
    c.atMarker '-' = false ∧ c.atMarker '.' = false := by
  have hseparator := Cursor.atSeparator_of_beginsToken h
  rwa [Cursor.atSeparator, Bool.or_eq_false_iff] at hseparator

theorem pushAcross_outside (t : Token) (n : Nat) :
    (outside c tokens indent indents allowKey key).pushAcross t n =
      outside (c.skip n) (tokens ++ [t]) indent indents allowKey key := by
  simp [pushAcross, push, outside]

theorem cursor_outside : (outside c tokens indent indents allowKey key).cursor = c := rfl

theorem inFlow_outside : (outside c tokens indent indents allowKey key).inFlow = false := rfl

/-- What the three indicators of blocks have in common: a block may start, and a key may not go on. -/
theorem dropKey_openBlock (t u : Token) (hkey : IsOptional key) :
    (do
      let s ← { (outside c tokens indent indents allowKey key).openBlock t with
        allowKey := true }.dropKey
      pure (s.pushAcross u 1)) =
      .ok (outside (c.skip 1) (tokens ++ opening indent c.column t ++ [u])
        (innermost indent c.column) (enclosing indent indents c.column) true none) := by
  have hdrop : (outside c (tokens ++ opening indent c.column t) (innermost indent c.column)
      (enclosing indent indents c.column) true key).dropKey = _ := dropKey_outside hkey
  rw [openBlock_outside]
  refine (congrArg (· >>= fun s => pure (s.pushAcross u 1)) hdrop).trans ?_
  rw [ok_bind, pushAcross_outside]
  rfl

theorem blockEntry_outside (hkey : IsOptional key) :
    (outside c tokens indent indents true key).blockEntry =
      .ok (outside (c.skip 1) (tokens ++ opening indent c.column .blockSequenceStart ++ [.blockEntry])
        (innermost indent c.column) (enclosing indent indents c.column) true none) :=
  dropKey_openBlock .blockSequenceStart .blockEntry hkey

theorem explicitKey_outside (hkey : IsOptional key) :
    (outside c tokens indent indents true key).explicitKey =
      .ok (outside (c.skip 1) (tokens ++ opening indent c.column .blockMappingStart ++ [.key])
        (innermost indent c.column) (enclosing indent indents c.column) true none) := by
  rw [← dropKey_openBlock .blockMappingStart .key hkey, openBlock_outside]
  rw [explicitKey, inFlow_outside, openBlock_outside]
  rfl

/-- Behind a question mark and its key the colon starts a line. -/
theorem entryValue_outside :
    (outside c tokens indent indents true none).entryValue =
      .ok (outside (c.skip 1) (tokens ++ opening indent c.column .blockMappingStart ++ [.value])
        (innermost indent c.column) (enclosing indent indents c.column) true none) := by
  rw [← dropKey_openBlock .blockMappingStart .value isOptional_none, openBlock_outside]
  rw [entryValue]
  simp only [show (outside c tokens indent indents true none).keys = [none] from rfl,
    inFlow_outside, openBlock_outside]
  rfl

theorem insertIdx_length_append {α : Type} (xs ys : List α) (x : α) :
    (xs ++ ys).insertIdx xs.length x = xs ++ x :: ys := by
  induction xs with
  | nil => rfl
  | cons y xs ih => simp [ih]

/-- At the colon behind a key that started in front of `keyTokens`, the key is put in front of them,
and the start of a mapping if one starts there. -/
theorem entryValue_key {k : PossibleKey} {keyTokens : List Token} (hk : k.position = tokens.length) :
    (outside c (tokens ++ keyTokens) indent indents allowKey (some k)).entryValue =
      .ok (outside (c.skip 1)
        (tokens ++ opening indent k.column .blockMappingStart ++ [.key] ++ keyTokens ++ [.value])
        (innermost indent k.column) (enclosing indent indents k.column) false none) := by
  have hinsert (t : Token) (toks : List Token) : (tokens ++ toks).toArray.insertIdxIfInBounds
      tokens.length t = (tokens ++ t :: toks).toArray := by
    simp [List.insertIdxIfInBounds_toArray, insertIdx_length_append]
  rw [entryValue]
  simp only [outside, insert, hk, inFlow, indentTo, opening, innermost, enclosing, hinsert]
  by_cases h : indent < k.column
  · simp [h, pushAcross, push, hinsert]
    rfl
  · simp [h, pushAcross, push]
    rfl

/-! ## Tokens that may be keys -/

theorem keyLike_outside (read : Cursor → Except ReadFault (Token × Cursor)) {t : Token} {c' : Cursor}
    (hkey : allowKey = true → IsOptional key) (hread : read c = .ok (t, c')) :
    (outside c tokens indent indents allowKey key).keyLike read =
      .ok (outside c' (tokens ++ [t]) indent indents false
        (keyAfter c tokens indent allowKey key)) := by
  rw [keyLike, noteKey_outside hkey, ok_bind]
  show (read c >>= _) = _
  rw [hread, ok_bind]
  simp [outside, push]
  rfl

theorem plainToken_outside {chars : List Char} {crossed : Bool} {c' : Cursor}
    (hkey : allowKey = true → IsOptional key)
    (hread : plainWords false (indent + 1) (c.rest.length + 1) [] false c = (chars, crossed, c')) :
    (outside c tokens indent indents allowKey key).plainToken =
      .ok (outside c' (tokens ++ [.scalar (String.ofList chars) true]) indent indents crossed
        (keyAfter c tokens indent allowKey key)) := by
  rw [plainToken, noteKey_outside hkey, ok_bind]
  simp only [inFlow_outside]
  simp only [outside, hread, push]
  simp
  rfl

/-! ## The character that a token starts with -/

/-- The hyphen of an item. -/
theorem token_hyphen (hbegins : BeginsToken c.rest) (hkey : IsOptional key)
    (h : c.rest = '-' :: rest) (hrest : blankNext rest = true) :
    (outside c tokens indent indents true key).token =
      .ok (outside (c.skip 1) (tokens ++ opening indent c.column .blockSequenceStart ++ [.blockEntry])
        (innermost indent c.column) (enclosing indent indents c.column) true none) := by
  have hafter : isSpaceOrEnd (c.peek 1) = true := by rw [Cursor.peek_one h]; exact hrest
  have hempty : c.rest.isEmpty = false := by rw [h]; rfl
  rw [← blockEntry_outside hkey]
  simp [token, outside, Cursor.here_eq h, hempty, hafter, atMarker_of_beginsToken hbegins]

/-- The question mark of a key. -/
theorem token_question (hbegins : BeginsToken c.rest) (hkey : IsOptional key)
    (h : c.rest = '?' :: rest) (hrest : blankNext rest = true) :
    (outside c tokens indent indents true key).token =
      .ok (outside (c.skip 1) (tokens ++ opening indent c.column .blockMappingStart ++ [.key])
        (innermost indent c.column) (enclosing indent indents c.column) true none) := by
  have hafter : isSpaceOrEnd (c.peek 1) = true := by rw [Cursor.peek_one h]; exact hrest
  have hempty : c.rest.isEmpty = false := by rw [h]; rfl
  rw [← explicitKey_outside hkey]
  simp [token, outside, Cursor.here_eq h, hempty, hafter, atMarker_of_beginsToken hbegins]

theorem token_colon (hbegins : BeginsToken c.rest) (h : c.rest = ':' :: rest) (hrest : blankNext rest = true) :
    (outside c tokens indent indents allowKey key).token =
      (outside c tokens indent indents allowKey key).entryValue := by
  have hafter : isSpaceOrEnd (c.peek 1) = true := by rw [Cursor.peek_one h]; exact hrest
  have hempty : c.rest.isEmpty = false := by rw [h]; rfl
  simp [token, outside, Cursor.here_eq h, hempty, hafter, atMarker_of_beginsToken hbegins]

theorem anchorName_eq {name : List Char} {mark : Char} (h : c.rest = mark :: (name ++ rest))
    (hsome : name ≠ []) (hname : ∀ ch ∈ name, isNameChar ch = true)
    (hend : isNameChar (rest.headD endMark) = false) (hend' : endsAnchorName (rest.headD endMark) = true) :
    anchorName c = .ok (String.ofList name, c.skip (name.length + 1)) := by
  have hnext : c.next.rest = name ++ rest := by rw [Cursor.rest_next, h]; rfl
  have hhere : (c.next.skip name.length).here = rest.headD endMark := by
    rw [Cursor.here, Cursor.rest_skip_length hnext]
  have hempty : name.isEmpty = false := by simpa using hsome
  rw [anchorName, Cursor.span_eq hnext hname (.inr hend)]
  simp only [hempty, hhere, hend', Bool.not_true, Bool.or_self, Bool.false_eq_true, ↓reduceIte,
    Cursor.skip_succ]

/-- The anchor of a node. -/
theorem token_anchor {name : List Char} (hbegins : BeginsToken c.rest)
    (hkey : allowKey = true → IsOptional key) (h : c.rest = '&' :: (name ++ rest)) (hsome : name ≠ [])
    (hname : ∀ ch ∈ name, isNameChar ch = true) (hend : isNameChar (rest.headD endMark) = false)
    (hend' : endsAnchorName (rest.headD endMark) = true) :
    (outside c tokens indent indents allowKey key).token =
      .ok (outside (c.skip (name.length + 1)) (tokens ++ [.anchor (String.ofList name)]) indent indents
        false (keyAfter c tokens indent allowKey key)) := by
  have hempty : c.rest.isEmpty = false := by rw [h]; rfl
  rw [← keyLike_outside (fun c => (anchorName c).map fun p => (.anchor p.1, p.2)) hkey
    (by rw [anchorName_eq h hsome hname hend hend']; rfl)]
  simp [token, outside, Cursor.here_eq h, hempty, atMarker_of_beginsToken hbegins]

/-- The alias of a node. -/
theorem token_alias {name : List Char} (hbegins : BeginsToken c.rest)
    (hkey : allowKey = true → IsOptional key) (h : c.rest = '*' :: (name ++ rest)) (hsome : name ≠ [])
    (hname : ∀ ch ∈ name, isNameChar ch = true) (hend : isNameChar (rest.headD endMark) = false)
    (hend' : endsAnchorName (rest.headD endMark) = true) :
    (outside c tokens indent indents allowKey key).token =
      .ok (outside (c.skip (name.length + 1)) (tokens ++ [.alias (String.ofList name)]) indent indents
        false (keyAfter c tokens indent allowKey key)) := by
  have hempty : c.rest.isEmpty = false := by rw [h]; rfl
  rw [← keyLike_outside (fun c => (anchorName c).map fun p => (.alias p.1, p.2)) hkey
    (by rw [anchorName_eq h hsome hname hend hend']; rfl)]
  simp [token, outside, Cursor.here_eq h, hempty, atMarker_of_beginsToken hbegins]

/-- A quoted scalar. -/
theorem token_quoted (isDouble : Bool) {text : List Char} {after : Cursor}
    (hbegins : BeginsToken c.rest) (hkey : allowKey = true → IsOptional key)
    (h : c.rest = quoteChar isDouble :: rest) (hread : ReadsQuoted isDouble c.next text after) :
    (outside c tokens indent indents allowKey key).token =
      .ok (outside after (tokens ++ [.scalar (String.ofList text) false]) indent indents
        false (keyAfter c tokens indent allowKey key)) := by
  have hempty : c.rest.isEmpty = false := by rw [h]; rfl
  have hnext := hread (c.rest.length + 1) (by rw [Cursor.rest_next, h, List.tail_cons, List.length_cons]; omega)
  rw [← keyLike_outside (fun c =>
      (quotedRest isDouble (c.rest.length + 1) c.next).map fun p =>
        (.scalar (String.ofList p.1) false, p.2)) hkey (by rw [hnext]; rfl)]
  cases isDouble <;>
    simp [token, outside, quoteChar, Cursor.here_eq h, hempty, atMarker_of_beginsToken hbegins]

/-- The name of a standard tag, as an address spells it. -/
structure IsTagName (name : List Char) : Prop where
  isAddress : ∀ ch ∈ name, isAddressChar ch = true
  decodes : ∃ byte bytes, address.octets name = some (byte :: bytes) ∧
    Text.decode (byte :: bytes) = .ok name

theorem address_eq {name : List Char} (h : c.rest = name ++ rest) (hname : IsTagName name)
    (hrest : isAddressChar (rest.headD endMark) = false) :
    address c = .ok (String.ofList name, c.skip name.length) := by
  obtain ⟨byte, bytes, hoctets, hdecode⟩ := hname.decodes
  rw [address, Cursor.span_eq h hname.isAddress (.inr hrest)]
  simp only [hoctets, hdecode]

/-- The tag of a node, in its short form. -/
theorem token_tag {name : List Char} (hbegins : BeginsToken c.rest) (hkey : allowKey = true → IsOptional key)
    (h : c.rest = '!' :: '!' :: (name ++ rest)) (hname : IsTagName name)
    (hrest : isAddressChar (rest.headD endMark) = false)
    (hrest' : isBlankBreakOrEnd (rest.headD endMark) = true) :
    (outside c tokens indent indents allowKey key).token =
      .ok (outside (c.skip (name.length + 2)) (tokens ++ [.tag (some "!!") (String.ofList name)])
        indent indents false (keyAfter c tokens indent allowKey key)) := by
  have hempty : c.rest.isEmpty = false := by rw [h]; rfl
  have hnext : c.next.rest = '!' :: (name ++ rest) := by rw [Cursor.rest_next, h]; rfl
  have hnext' : c.next.next.rest = name ++ rest := by rw [Cursor.rest_next, hnext]; rfl
  have hpeek : c.peek 1 = '!' := Cursor.peek_one h
  have hspan : c.next.span isNameChar = ([], c.next.skip [].length) :=
    Cursor.span_eq hnext nofun (.inr rfl)
  rw [List.length_nil, Cursor.skip_zero] at hspan
  have hhandle : tagHandle c = .ok ("!!", c.next.next) := by
    simp only [tagHandle, Cursor.here_eq h, hpeek, hspan, Cursor.here_eq hnext]
    rfl
  have hcontains : ((c.rest.drop 1).takeWhile fun ch => !isBlankBreakOrEnd ch).contains '!' = true := by
    rw [h]
    rfl
  have hhere : (c.next.next.skip name.length).here = rest.headD endMark := by
    rw [Cursor.here, Cursor.rest_skip_length hnext']
  have htag : tag c = .ok (.tag (some "!!") (String.ofList name), c.skip (name.length + 2)) := by
    rw [tag]
    simp only [hpeek, hcontains, hhandle, ok_bind, address_eq hnext' hname hrest, hhere, hrest',
      ↓reduceIte]
    rfl
  rw [← keyLike_outside tag hkey htag]
  simp [token, outside, Cursor.here_eq h, hempty, atMarker_of_beginsToken hbegins]

/-- The indicator of a literal block.  The reader goes on to the line behind the block, where a key may
start. -/
theorem token_block {text : List Char} {after : Cursor} (hbegins : BeginsToken c.rest)
    (hkey : IsOptional key) (h : c.rest = '|' :: rest)
    (hread : blockScalar false indent c.next = .ok (text, after)) :
    (outside c tokens indent indents allowKey key).token =
      .ok (outside after (tokens ++ [.scalar (String.ofList text) false]) indent indents true none) := by
  have hempty : c.rest.isEmpty = false := by rw [h]; rfl
  have hdrop : (outside c tokens indent indents true key).dropKey = _ := dropKey_outside hkey
  have hblock : (outside c tokens indent indents allowKey key).blockScalarToken false =
      .ok (outside after (tokens ++ [.scalar (String.ofList text) false]) indent indents true none) := by
    rw [blockScalarToken]
    refine (congrArg (· >>= _) hdrop).trans ?_
    rw [ok_bind]
    simp only [outside, hread, ok_bind, push]
    simp
    rfl
  rw [← hblock]
  simp [token, outside, inFlow, Cursor.here_eq h, hempty, atMarker_of_beginsToken hbegins]

/-- The first character of a plain scalar is no indicator, or it is one that a solid character
follows. -/
theorem token_plain {ch : Char} (hbegins : BeginsToken c.rest) (h : c.rest = ch :: rest)
    (hch : IsWordChar ch) (hindicator : startsWithIndicator (ch :: rest) = false) :
    (outside c tokens indent indents allowKey key).token =
      (outside c tokens indent indents allowKey key).plainToken := by
  have hempty : c.rest.isEmpty = false := by rw [h]; rfl
  have hpeek : c.peek 1 = rest.headD endMark := Cursor.peek_one h
  simp only [startsWithIndicator, Bool.or_eq_false_iff] at hindicator
  obtain ⟨hnone, hblank⟩ := hindicator
  have hne : ∀ d, (d ∈ "#,[]\x7b\x7d&*!|>'\"%@`".toList) → (ch == d) = false := by
    intro d hd
    rw [beq_eq_false_iff_ne]
    rintro rfl
    rw [List.contains_eq_mem, decide_eq_false_iff_not] at hnone
    exact hnone hd
  have hmay (d : Char) (hd : d = '?' ∨ d = ':' ∨ d = '-') :
      (ch == d && isSpaceOrEnd (rest.headD endMark)) = false := by
    cases hafter : isSpaceOrEnd (rest.headD endMark) with
    | false => rw [Bool.and_false]
    | true =>
      rw [show blankNext rest = true from hafter, Bool.and_true] at hblank
      rw [Bool.and_true, beq_eq_false_iff_ne]
      rintro rfl
      rcases hd with rfl | rfl | rfl <;> simp at hblank
  have hstart : (!(isSpaceOrEnd ch || isIndicator ch) ||
      (!isSpaceOrEnd (rest.headD endMark) && (ch == '-' || (!false && (ch == '?' || ch == ':'))))) =
        true := by
    by_cases hfew : ch = '-' ∨ ch = '?' ∨ ch = ':'
    · have hafter : isSpaceOrEnd (rest.headD endMark) = false := by
        rcases hfew with rfl | rfl | rfl
        · simpa using hmay '-' (by simp)
        · simpa using hmay '?' (by simp)
        · simpa using hmay ':' (by simp)
      rw [hafter]
      rcases hfew with rfl | rfl | rfl <;> rfl
    · have hother : isIndicator ch = false := by
        rw [isIndicator, List.contains_eq_mem, decide_eq_false_iff_not]
        intro hmem
        have hself := hne ch (by simp at hmem hfew ⊢; grind)
        rw [beq_self_eq_true] at hself
        cases hself
      rw [hch.isSpaceOrEnd, hother]
      rfl
  rw [token]
  simp only [cursor_outside, inFlow_outside, Cursor.here_eq h, hempty, hpeek,
    atMarker_of_beginsToken hbegins, hmay '?' (by simp), hmay ':' (by simp), hmay '-' (by simp),
    hne '%' (by decide), hne '[' (by decide), hne '\x7b' (by decide), hne ']' (by decide),
    hne '\x7d' (by decide), hne ',' (by decide), hne '*' (by decide), hne '&' (by decide),
    hne '!' (by decide), hne '|' (by decide), hne '>' (by decide), hne '\'' (by decide),
    hne '"' (by decide), hstart, Bool.false_and, Bool.and_false, Bool.false_or, Bool.false_eq_true,
    ↓reduceIte]

end Lexer
end DevMachines.Yaml
