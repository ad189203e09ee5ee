import Mathlib
import DevMachines.Proofs.Yaml.Folding
import DevMachines.Proofs.Number.Digits
import DevMachines.Proofs.Results
import DevMachines.Yaml.Token.Scalar

/-!
# Quoted scalars read back

Between quotes the reader goes from one character, blank, row of breaks or escape to the next.
`ReadsQuoted` says that it reads a text up to the closing quote whatever fuel it has beyond the
length of what remains, and there is one lemma for each kind of step.

Main statements: `readsQuoted_folds` for single quotes, and for double ones `readsQuoted_foldsEscaped`
with `foldsEscaped_doubleQuotedRun`, which says what the writer puts between them.
-/

namespace DevMachines.Yaml

variable {isDouble : Bool} {c after : Cursor} {text written rest : List Char} {ch : Char}

/-- The quote that ends a text. -/
def quoteChar (isDouble : Bool) : Char := if isDouble then '"' else '\''

/-- From a cursor inside quotes a text is read, up to a place behind the closing quote. -/
def ReadsQuoted (isDouble : Bool) (c : Cursor) (text : List Char) (after : Cursor) : Prop :=
  ∀ fuel, c.rest.length < fuel → quotedRest isDouble fuel c = .ok (text, after)

/-- Is this a character of a word, which takes a column and is no blank? -/
def IsWordChar (c : Char) : Prop := TakesColumn c ∧ c ≠ ' '

instance : DecidablePred IsWordChar := fun c => inferInstanceAs (Decidable (TakesColumn c ∧ c ≠ ' '))

theorem IsWordChar.isSpaceOrEnd (h : IsWordChar ch) : isSpaceOrEnd ch = false := by
  rw [h.1.isSpaceOrEnd]
  simpa using h.2

theorem IsWordChar.not_blankOrTab (h : IsWordChar ch) : (ch == ' ' || ch == '\t') = false := by
  have htab : ch ≠ '\t' := by
    rintro rfl
    exact absurd h.1 (by decide)
  simp [h.2, htab]

/-- A character of a word comes next, perhaps behind blanks. -/
def WordAhead (cs : List Char) : Prop :=
  ∃ n ch rest, cs = List.replicate n ' ' ++ ch :: rest ∧ IsWordChar ch

theorem wordAhead_cons (h : IsWordChar ch) (rest : List Char) : WordAhead (ch :: rest) :=
  ⟨0, ch, rest, by simp, h⟩

theorem WordAhead.blank (h : WordAhead rest) : WordAhead (' ' :: rest) := by
  obtain ⟨n, ch, more, rfl, hch⟩ := h
  exact ⟨n + 1, ch, more, by simp [List.replicate_succ], hch⟩

theorem WordAhead.blanks (h : WordAhead rest) (n : Nat) : WordAhead (List.replicate n ' ' ++ rest) := by
  induction n with
  | zero => exact h
  | succ n ih => exact ih.blank

/-! ## One step -/

theorem exists_fuel {n fuel : Nat} (h : n < fuel) : ∃ k, fuel = k + 1 ∧ n ≤ k :=
  ⟨fuel - 1, by omega, by omega⟩

/-- The closing quote. -/
theorem readsQuoted_close (h : c.rest = quoteChar isDouble :: rest)
    (hrest : isDouble = false → rest.headD endMark ≠ '\'') :
    ReadsQuoted isDouble c [] c.next := by
  intro fuel hfuel
  obtain ⟨fuel, rfl, -⟩ := exists_fuel hfuel
  have hpeek := Cursor.peek_one h
  cases isDouble with
  | true => simp [quotedRest, Cursor.here_eq h, quoteChar, isSpaceOrEnd, isBlankBreakOrEnd,
      isBreakOrEnd, isBreak, endMark]
  | false =>
    have hquote : c.peek 1 ≠ '\'' := hpeek ▸ hrest rfl
    simp [quotedRest, Cursor.here_eq h, quoteChar, isSpaceOrEnd, isBlankBreakOrEnd,
      isBreakOrEnd, isBreak, endMark, hquote]

/-- A character that stands for itself. -/
theorem ReadsQuoted.char (h : ReadsQuoted isDouble c.next text after) (hrest : c.rest = ch :: rest)
    (hch : IsWordChar ch) (hquote : ch ≠ quoteChar isDouble)
    (hbackslash : isDouble = true → ch ≠ '\\') : ReadsQuoted isDouble c (ch :: text) after := by
  intro fuel hfuel
  obtain ⟨fuel, rfl, hle⟩ := exists_fuel hfuel
  have hnext := h fuel (by simp [Cursor.rest_next, hrest] at hle ⊢; omega)
  simp only [quoteChar] at hquote
  simp [quotedRest, Cursor.here_eq hrest, hch.isSpaceOrEnd, hquote, hnext, Except.map]
  grind

/-- Two single quotes stand for one. -/
theorem ReadsQuoted.doubled (h : ReadsQuoted false c.next.next text after)
    (hrest : c.rest = '\'' :: '\'' :: rest) : ReadsQuoted false c ('\'' :: text) after := by
  intro fuel hfuel
  obtain ⟨fuel, rfl, hle⟩ := exists_fuel hfuel
  have hnext := h fuel (by simp [Cursor.rest_next, hrest] at hle ⊢; omega)
  have hpeek : c.peek 1 = '\'' := Cursor.peek_one hrest
  simp [quotedRest, Cursor.here_eq hrest, hpeek, hnext, Except.map, isSpaceOrEnd,
    isBlankBreakOrEnd, isBreakOrEnd, isBreak, endMark]

theorem quotedSpace_blanks {n : Nat} (h : c.rest = List.replicate n ' ' ++ ch :: rest)
    (hch : IsWordChar ch) : quotedSpace c = .ok (List.replicate n ' ', c.skip n) := by
  have hspan := Cursor.span_eq (p := fun ch => ch == ' ' || ch == '\t') h
    (fun d hd => by simp [List.eq_of_mem_replicate hd]) (.inr hch.not_blankOrTab)
  have hhere : (c.skip n).here = ch := by rw [Cursor.skip_blanks h]; rfl
  have hbreak : isBreak (c.skip n).here = false := hhere ▸ hch.1.not_isBreak
  rw [List.length_replicate] at hspan
  simp [quotedSpace, hspan, hhere, hch.1.ne_endMark, Cursor.lineBreak_eq_none hbreak]

/-- Behind a space the reader goes on. -/
theorem quotedRest_space {fuel : Nat} {gap : List Char} {c' : Cursor}
    (hhere : isSpaceOrEnd c.here = true) (hspace : quotedSpace c = .ok (gap, c')) :
    quotedRest isDouble (fuel + 1) c =
      (quotedRest isDouble fuel c').map fun (more, c) => (gap ++ more, c) := by
  simp only [quotedRest, hhere, ↓reduceIte, hspace, ok_bind]
  cases quotedRest isDouble fuel c' <;> rfl

/-- A blank before a word. -/
theorem ReadsQuoted.blank (h : ReadsQuoted isDouble c.next text after) (hrest : c.rest = ' ' :: rest)
    (hahead : WordAhead rest) : ReadsQuoted isDouble c (' ' :: text) after := by
  intro fuel hfuel
  obtain ⟨n, ch, more, rfl, hch⟩ := hahead
  have hnext : c.next.rest = List.replicate n ' ' ++ ch :: more := by rw [Cursor.rest_next, hrest]; rfl
  have hspace : quotedSpace c = .ok (' ' :: List.replicate n ' ', c.next.skip n) :=
    quotedSpace_blanks (n := n + 1) (by rw [hrest, List.replicate_succ]; rfl) hch
  obtain ⟨fuel, rfl, hle⟩ := exists_fuel hfuel
  have hlength : c.next.rest.length < fuel := by
    rw [hnext]; rw [hrest] at hle; simp at hle ⊢; omega
  have hblank : isSpaceOrEnd c.here = true := by rw [Cursor.here_eq hrest]; rfl
  rw [quotedRest_space hblank hspace]
  cases n with
  | zero => rw [Cursor.skip_zero, h fuel hlength]; rfl
  | succ n =>
    -- The blanks after this one are read in the same stretch.
    have hmore := h (fuel + 1) (by omega)
    have hhere : c.next.here = ' ' := by rw [Cursor.here, hnext]; rfl
    rw [quotedRest_space (by rw [hhere]; rfl) (quotedSpace_blanks hnext hch)] at hmore
    cases hlast : quotedRest isDouble fuel (c.next.skip (n + 1)) with
    | error e => rw [hlast] at hmore; cases hmore
    | ok result =>
      rw [hlast] at hmore
      cases hmore
      rfl

theorem ReadsQuoted.blanks {n : Nat} (h : ReadsQuoted isDouble (c.skip n) text after)
    (hrest : c.rest = List.replicate n ' ' ++ rest) (hahead : WordAhead rest) :
    ReadsQuoted isDouble c (List.replicate n ' ' ++ text) after := by
  induction n generalizing c with
  | zero => exact h
  | succ n ih =>
    have hnext : c.next.rest = List.replicate n ' ' ++ rest := by rw [Cursor.rest_next, hrest]; rfl
    exact (ih h hnext).blank (by rw [hrest, List.replicate_succ]; rfl) (hahead.blanks n)

/-! ## Breaks -/

/-- The breaks before an indented word are read with its indentation. -/
theorem quotedBreaks_indented {fuel n indent : Nat}
    (h : c.rest = List.replicate n '\n' ++ (List.replicate indent ' ' ++ ch :: rest))
    (hch : IsWordChar ch) (hindent : 0 < indent) (hfuel : n < fuel) :
    quotedBreaks fuel c = .ok (List.replicate n '\n', c.skip (n + indent)) := by
  induction n generalizing fuel c with
  | zero =>
    obtain ⟨fuel, rfl, -⟩ := exists_fuel hfuel
    rw [List.replicate_zero, List.nil_append] at h
    have hskip := Cursor.skipWhile_eq (p := fun ch => ch == ' ' || ch == '\t') h
      (fun d hd => by simp [List.eq_of_mem_replicate hd]) (.inr hch.not_blankOrTab)
    have hhere : (c.skip indent).here = ch := by rw [Cursor.skip_blanks h]; rfl
    have hseparator : c.atSeparator = false := by
      obtain ⟨k, rfl⟩ : ∃ k, indent = k + 1 := ⟨indent - 1, by omega⟩
      exact Cursor.atSeparator_of_blank h
    rw [List.length_replicate] at hskip
    simp only [quotedBreaks, hseparator, Bool.false_eq_true, ↓reduceIte, hskip,
      Cursor.lineBreak_eq_none (hhere ▸ hch.1.not_isBreak), List.replicate_zero, Nat.zero_add]
  | succ n ih =>
    obtain ⟨fuel, rfl, hle⟩ := exists_fuel hfuel
    rw [List.replicate_succ, List.cons_append] at h
    have hnext : quotedBreaks fuel c.next = _ := ih (by rw [Cursor.rest_next, h]; rfl) (by omega)
    have hskip : c.skipWhile (fun ch => ch == ' ' || ch == '\t') = c.skip [].length :=
      Cursor.skipWhile_eq h nofun (.inr rfl)
    rw [List.length_nil, Cursor.skip_zero] at hskip
    simp only [quotedBreaks, Cursor.atSeparator_of_newline h, Bool.false_eq_true, ↓reduceIte, hskip,
      Cursor.lineBreak_of_newline h, hnext, map_ok, Nat.add_right_comm n 1 indent,
      List.replicate_succ, Cursor.skip_succ]

/-- A row of breaks reads as a blank, or as the breaks behind the first. -/
theorem ReadsQuoted.breaks {n indent : Nat}
    (h : ReadsQuoted isDouble (c.skip (n + 1 + indent)) text after)
    (hrest : c.rest = List.replicate (n + 1) '\n' ++ (List.replicate indent ' ' ++ ch :: rest))
    (hch : IsWordChar ch) (hindent : 0 < indent) :
    ReadsQuoted isDouble c (foldBreaks '\n' (List.replicate n '\n') ++ text) after := by
  intro fuel hfuel
  obtain ⟨fuel, rfl, hle⟩ := exists_fuel hfuel
  rw [List.replicate_succ, List.cons_append] at hrest
  have hnext : c.next.rest = List.replicate n '\n' ++ (List.replicate indent ' ' ++ ch :: rest) := by
    rw [Cursor.rest_next, hrest]; rfl
  have hbreaks : quotedBreaks (c.next.rest.length + 1) c.next = _ :=
    quotedBreaks_indented hnext hch hindent (by grind)
  have hspan : c.span (fun ch => ch == ' ' || ch == '\t') = ([], c.skip [].length) :=
    Cursor.span_eq hrest nofun (.inr rfl)
  rw [List.length_nil, Cursor.skip_zero] at hspan
  have hspace : quotedSpace c =
      .ok (foldBreaks '\n' (List.replicate n '\n'), c.skip (n + 1 + indent)) := by
    have hend : '\n' ≠ endMark := by decide
    rw [quotedSpace, hspan]
    simp only [Cursor.here_eq hrest, beq_iff_eq, hend, ↓reduceIte,
      Cursor.lineBreak_of_newline hrest, hbreaks, map_ok]
    rw [Nat.add_right_comm, Cursor.skip_succ]
  have hlast := h fuel (by
    rw [Cursor.rest_skip, hrest]; rw [hrest] at hle; simp at hle ⊢; omega)
  rw [quotedRest_space (by rw [Cursor.here_eq hrest]; rfl) hspace, hlast]
  rfl

/-! ## Single quotes -/

theorem isWordChar_headD (hascii : ∀ c ∈ text, c = '\n' ∨ TakesColumn c)
    (hsome : text ≠ []) (hsolid : IsSolid (text.headD endMark)) : IsWordChar (text.headD endMark) := by
  obtain ⟨d, ds, rfl⟩ := List.exists_cons_of_ne_nil hsome
  exact ⟨(hascii d (by simp)).resolve_left hsolid.2, hsolid.1⟩

theorem Folds.exists_head {indent : Nat} (h : Folds indent Ink.doubledQuote text written)
    (hascii : ∀ c ∈ text, c = '\n' ∨ TakesColumn c) (hsolid : IsSolid (text.headD endMark))
    (rest : List Char) : ∃ ch more, written ++ '\'' :: rest = ch :: more ∧ IsWordChar ch := by
  cases h with
  | nil => exact ⟨'\'', rest, rfl, by decide⟩
  | @solid d text written hd h =>
    have hword : IsWordChar d := isWordChar_headD hascii (by simp) hd
    unfold Ink.doubledQuote
    split
    · exact ⟨'\'', _, rfl, by decide⟩
    · exact ⟨d, _, rfl, hword⟩
  | blanks n => simp [List.replicate_succ, IsSolid] at hsolid
  | fold => simp [IsSolid] at hsolid
  | breaks n => simp [List.replicate_succ, IsSolid] at hsolid

/-- **A folded text in single quotes reads back.** -/
theorem readsQuoted_folds {indent : Nat} (h : Folds indent Ink.doubledQuote text written)
    (hascii : ∀ c ∈ text, c = '\n' ∨ TakesColumn c) (hindent : 0 < indent)
    (hrest : c.rest = written ++ '\'' :: rest) (hend : rest.headD endMark ≠ '\'') :
    ReadsQuoted false c text (c.skip (written.length + 1)) := by
  induction h generalizing c with
  | nil => exact readsQuoted_close hrest fun _ => hend
  | @solid d text written hd h ih =>
    have hword : IsWordChar d := isWordChar_headD hascii (by simp) hd
    have hascii' : ∀ c ∈ text, c = '\n' ∨ TakesColumn c := fun c hc => hascii c (by simp [hc])
    by_cases hquote : d = '\''
    · subst hquote
      have hnext := ih hascii' (c := c.next.next) (by simp [Cursor.rest_next, hrest, Ink.doubledQuote])
      exact hnext.doubled hrest
    · have hspell : Ink.doubledQuote d = [d] := by simp [Ink.doubledQuote, hquote]
      rw [hspell] at hrest ⊢
      have hnext := ih hascii' (c := c.next) (by rw [Cursor.rest_next, hrest]; rfl)
      exact hnext.char hrest hword hquote (absurd · Bool.false_ne_true)
  | @blanks n text written hnext h ih =>
    have hascii' : ∀ c ∈ text, c = '\n' ∨ TakesColumn c := fun c hc => hascii c (by simp [hc])
    obtain ⟨ch, more, hhead, hch⟩ := h.exists_head hascii' hnext rest
    rw [List.append_assoc] at hrest
    have hlast := ih hascii' (c := c.skip (n + 1)) (by rw [Cursor.skip_blanks hrest])
    rw [← Cursor.skip_add] at hlast
    have hread := hlast.blanks hrest (hhead ▸ wordAhead_cons hch more)
    simpa [Nat.add_assoc] using hread
  | @fold text written hsome hnext h ih =>
    have hascii' : ∀ c ∈ text, c = '\n' ∨ TakesColumn c := fun c hc => hascii c (by simp [hc])
    obtain ⟨ch, more, hhead, hch⟩ := h.exists_head hascii' hnext rest
    rw [List.cons_append, List.append_assoc] at hrest
    have hlast := ih hascii' (c := c.skip (indent + 1)) (by rw [Cursor.skip_newline hrest])
    rw [← Cursor.skip_add] at hlast
    rw [hhead] at hrest
    have hread := ReadsQuoted.breaks (n := 0) (by rwa [Nat.zero_add, Nat.add_comm 1 indent]) hrest hch hindent
    simpa [Nat.add_assoc, Nat.add_comm, Nat.add_left_comm, foldBreaks] using hread
  | @breaks n text written hnext h ih =>
    have hascii' : ∀ c ∈ text, c = '\n' ∨ TakesColumn c := fun c hc => hascii c (by simp [hc])
    obtain ⟨ch, more, hhead, hch⟩ := h.exists_head hascii' hnext rest
    rw [List.append_assoc, List.append_assoc] at hrest
    have hafter : (c.skip (n + 1 + 1 + indent)).rest = written ++ '\'' :: rest := by
      have hskip : (c.skip (List.replicate (n + 2) '\n' ++ List.replicate indent ' ').length).rest =
          written ++ '\'' :: rest := Cursor.rest_skip_length (by simp [hrest])
      simpa using hskip
    have hlast := ih hascii' hafter
    rw [← Cursor.skip_add] at hlast
    rw [hhead] at hrest
    have hread := ReadsQuoted.breaks (n := n + 1) hlast hrest hch hindent
    simpa [Nat.add_assoc, Nat.add_comm, Nat.add_left_comm, foldBreaks] using hread

/-! ## Escapes -/

namespace Ink

theorem length_capitalHex {width n : Nat} (hwidth : 0 < width) (h : n < 16 ^ width) :
    (capitalHex width n).length = width := by
  have hlength : (Nat.toDigits 16 n).length ≤ width :=
    (Nat.length_toDigits_le_iff (by decide) hwidth).mpr h
  simp only [capitalHex, List.length_append, List.length_replicate, List.length_map]
  omega

theorem readDigits?_capitalHex (width n : Nat) : readDigits? 16 (capitalHex width n) = some n := by
  have hread := readDigits?_map_toDigits (fun d hd => hexValue?_toUpper_digitChar hd) (by decide)
    (width - ((Nat.toDigits 16 n).map Char.toUpper).length) n
  rwa [List.map_append, List.map_replicate, show '0'.toUpper = '0' from rfl] at hread

theorem isWordChar_toUpper_digitChar {d : Nat} (h : d < 16) : IsWordChar d.digitChar.toUpper := by
  decide +revert

theorem isWordChar_of_mem_capitalHex {width n : Nat} (h : ch ∈ capitalHex width n) :
    IsWordChar ch := by
  simp only [capitalHex, List.mem_append, List.mem_map] at h
  rcases h with h | ⟨d, hd, rfl⟩
  · rw [List.eq_of_mem_replicate h]
    decide
  · induction n using Nat.strongRecOn with
    | _ n ih =>
      rcases Nat.lt_or_ge n 16 with hn | hn
      · rw [Nat.toDigits_of_lt_base hn, List.mem_singleton] at hd
        exact hd ▸ isWordChar_toUpper_digitChar hn
      · rw [Nat.toDigits_of_base_le (by decide) hn, List.mem_append, List.mem_singleton] at hd
        rcases hd with hd | rfl
        · exact ih (n / 16) (Nat.div_lt_self (by omega) (by decide)) hd
        · exact isWordChar_toUpper_digitChar (Nat.mod_lt n (by decide))

end Ink

/-- Behind a backslash these characters name a character. -/
def NamesChar (name : List Char) (ch : Char) : Prop :=
  ∀ (c : Cursor) (rest : List Char), c.rest = name ++ rest →
    escapeSequence c = .ok ([ch], c.skip name.length)

theorem namesChar_letter {letter : Char} (h : namedEscape letter = some ch) :
    NamesChar [letter] ch := by
  intro c rest hrest
  have hsome : c.rest.isEmpty = false := by rw [hrest]; rfl
  simp only [escapeSequence, Cursor.here_eq hrest, h, hsome, Bool.false_eq_true, ↓reduceIte]
  rfl

theorem namesChar_digits {letter : Char} {width : Nat} (hname : namedEscape letter = none)
    (hletter : escapeLength letter = some width) (hwidth : 0 < width) (h : ch.toNat < 16 ^ width) :
    NamesChar (letter :: Ink.capitalHex width ch.toNat) ch := by
  intro c rest hrest
  have hlength := Ink.length_capitalHex hwidth h
  have hnext : c.next.rest = Ink.capitalHex width ch.toNat ++ rest := by
    rw [Cursor.rest_next, hrest]; rfl
  have htake : c.next.rest.take width = Ink.capitalHex width ch.toNat := by
    rw [hnext, List.take_append_of_le_length (by omega), List.take_of_length_le (by omega)]
  have hcode : ch.toNat < 0x110000 := toNat_lt ch
  simp only [escapeSequence, Cursor.here_eq hrest, hname, hletter, htake, hlength,
    Nat.lt_irrefl, ↓reduceIte, Ink.readDigits?_capitalHex, hcode, Char.ofNat_toNat,
    List.length_cons, Cursor.skip_succ]

/-- Every escape is a backslash and a name of the character. -/
theorem exists_escape (ch : Char) :
    ∃ name, Ink.escape ch = '\\' :: name ∧ NamesChar name ch ∧ ∀ d ∈ name, IsWordChar d := by
  have hdigits {letter : Char} {width : Nat} (hletter : IsWordChar letter) :
      ∀ d ∈ letter :: Ink.capitalHex width ch.toNat, IsWordChar d := by
    intro d hd
    rcases List.mem_cons.mp hd with rfl | hd
    · exact hletter
    · exact Ink.isWordChar_of_mem_capitalHex hd
  unfold Ink.escape
  split
  · next letter h =>
    refine ⟨[letter], rfl, ?_⟩
    unfold Ink.escapeLetter at h
    split at h <;> cases h <;> exact ⟨namesChar_letter rfl, List.all_iff_forall_prop.mp (by decide)⟩
  · split_ifs with hbyte hbasic
    · exact ⟨_, rfl, namesChar_digits rfl rfl (by decide) (by omega), hdigits (by decide)⟩
    · exact ⟨_, rfl, namesChar_digits rfl rfl (by decide) (by omega), hdigits (by decide)⟩
    · have hlt := toNat_lt ch
      exact ⟨_, rfl, namesChar_digits rfl rfl (by decide) (by omega), hdigits (by decide)⟩

theorem quotedRest_backslash {fuel : Nat} {chars : List Char} {c' : Cursor}
    (hrest : c.rest = '\\' :: rest) (hescape : escapeSequence c.next = .ok (chars, c')) :
    quotedRest true (fuel + 1) c =
      (quotedRest true fuel c').map fun (more, c) => (chars ++ more, c) := by
  have hspace : isSpaceOrEnd '\\' = false := rfl
  simp only [quotedRest, Cursor.here_eq hrest, hspace, hescape, ok_bind]
  cases quotedRest true fuel c' <;> rfl

/-- A backslash and the name of a character. -/
theorem ReadsQuoted.escape {name : List Char} (h : ReadsQuoted true (c.skip (name.length + 1)) text after)
    (hrest : c.rest = '\\' :: (name ++ rest)) (hname : NamesChar name ch) :
    ReadsQuoted true c (ch :: text) after := by
  intro fuel hfuel
  obtain ⟨fuel, rfl, hle⟩ := exists_fuel hfuel
  have hnext : c.next.rest = name ++ rest := by rw [Cursor.rest_next, hrest]; rfl
  have hlast := h fuel (by rw [Cursor.rest_skip, hrest]; rw [hrest] at hle; simp at hle ⊢; omega)
  rw [Cursor.skip_succ] at hlast
  rw [quotedRest_backslash hrest (hname c.next rest hnext), hlast]
  rfl

/-- A backslash takes back the line break behind it, and the indentation. -/
theorem ReadsQuoted.fold {indent : Nat} (h : ReadsQuoted true (c.skip (indent + 2)) text after)
    (hrest : c.rest = '\\' :: '\n' :: (List.replicate indent ' ' ++ ch :: rest)) (hch : IsWordChar ch)
    (hindent : 0 < indent) : ReadsQuoted true c text after := by
  intro fuel hfuel
  obtain ⟨fuel, rfl, hle⟩ := exists_fuel hfuel
  have hnext : c.next.rest = '\n' :: (List.replicate indent ' ' ++ ch :: rest) := by
    rw [Cursor.rest_next, hrest]; rfl
  have hline : c.next.next.rest = List.replicate indent ' ' ++ ch :: rest := by
    rw [Cursor.rest_next, hnext]; rfl
  have hbreaks : quotedBreaks (c.next.next.rest.length + 1) c.next.next = _ :=
    quotedBreaks_indented (n := 0) hline hch hindent (by omega)
  have hescape : escapeSequence c.next = .ok ([], c.next.next.skip indent) := by
    have hname : namedEscape '\n' = none := rfl
    have hlength : escapeLength '\n' = none := rfl
    simpa [escapeSequence, Cursor.here_eq hnext, hname, hlength, Cursor.lineBreak_of_newline hnext]
      using hbreaks
  have hlast := h fuel (by rw [Cursor.rest_skip, hrest]; rw [hrest] at hle; simp at hle ⊢; omega)
  rw [Cursor.skip_succ, Cursor.skip_succ] at hlast
  rw [quotedRest_backslash hrest hescape, hlast]
  rfl

/-- A blank behind a fold is kept by a second backslash. -/
theorem ReadsQuoted.foldedBlank {indent : Nat} (h : ReadsQuoted true (c.skip (indent + 4)) text after)
    (hrest : c.rest = '\\' :: '\n' :: (List.replicate indent ' ' ++ '\\' :: ' ' :: rest))
    (hindent : 0 < indent) : ReadsQuoted true c (' ' :: text) after := by
  have hafter : (c.skip (indent + 2)).rest = '\\' :: ' ' :: rest := by
    have hskip : (c.skip ('\\' :: '\n' :: List.replicate indent ' ').length).rest =
        '\\' :: ' ' :: rest := Cursor.rest_skip_length (by simp [hrest])
    simpa using hskip
  have hescape : ReadsQuoted true (c.skip (indent + 2)) (' ' :: text) after :=
    ReadsQuoted.escape (by rwa [← Cursor.skip_add]) hafter (namesChar_letter rfl)
  exact hescape.fold hrest (by decide) hindent

/-! ## Double quotes -/

theorem isWordChar_of_isVisible (h : Ink.isVisible ch = true) (hblank : ch ≠ ' ') :
    IsWordChar ch ∧ ch ≠ '"' ∧ ch ≠ '\\' := by
  simp only [Ink.isVisible, Bool.and_eq_true, decide_eq_true_eq, bne_iff_ne] at h
  exact ⟨⟨⟨h.1.1.1, h.1.1.2⟩, hblank⟩, h.1.2, h.2⟩

/-- A text and what stands for it in double quotes, on lines that are indented by `indent`.  A fold may
stand anywhere but before a blank; a blank behind a fold is kept by a second backslash. -/
inductive FoldsEscaped (indent : Nat) : List Char → List Char → Prop where
  | nil : FoldsEscaped indent [] []
  | visible {ch : Char} {text written : List Char} (hch : Ink.isVisible ch = true)
      (h : FoldsEscaped indent text written) : FoldsEscaped indent (ch :: text) (ch :: written)
  | escape {ch : Char} {text written : List Char} (h : FoldsEscaped indent text written) :
      FoldsEscaped indent (ch :: text) (Ink.escape ch ++ written)
  | fold {text written : List Char} (hnext : text.headD endMark ≠ ' ')
      (h : FoldsEscaped indent text written) :
      FoldsEscaped indent text ('\\' :: '\n' :: (List.replicate indent ' ' ++ written))
  | foldedBlank {text written : List Char} (h : FoldsEscaped indent text written) :
      FoldsEscaped indent (' ' :: text)
        ('\\' :: '\n' :: (List.replicate indent ' ' ++ '\\' :: ' ' :: written))

/-- Does no escaped character stand before a blank that more text follows? -/
def Ink.KeepsBlanks (text : List Char) : Prop :=
  ∀ before ch after, text = before ++ ch :: ' ' :: after → after ≠ [] → Ink.isVisible ch = true

theorem Ink.KeepsBlanks.tail {ch : Char} {text : List Char} (h : Ink.KeepsBlanks (ch :: text)) :
    Ink.KeepsBlanks text :=
  fun before d after heq => h (ch :: before) d after (by rw [heq, List.cons_append])

/-- A text is written folded and escaped in double quotes.  Where lines are indented to the width of the
page, there would be a second fold at a blank behind the fold that an escape brings, and its backslash
would be escaped by the first one; a text that keeps its blanks has no such place. -/
theorem foldsEscaped_doubleQuotedRun {indent : Nat} (split isFirst afterEscape : Bool) (column : Nat)
    (text : List Char)
    (h : split = true →
      indent < Ink.bestWidth ∨ Ink.KeepsBlanks (if isFirst then text.tail else text)) :
    FoldsEscaped indent text
      (Ink.doubleQuotedRun indent split isFirst afterEscape column text).1 := by
  match text with
  | [] => exact .nil
  | ch :: text =>
    have hrest : split = true → indent < Ink.bestWidth ∨ Ink.KeepsBlanks text := by
      refine fun hsplit => (h hsplit).imp_right fun hkeeps => ?_
      cases isFirst with
      | true => exact hkeeps
      | false => exact hkeeps.tail
    have hmore (afterEscape : Bool) (column : Nat) :=
      foldsEscaped_doubleQuotedRun split false afterEscape column text hrest
    rw [Ink.doubleQuotedRun]
    by_cases hvisible : Ink.isVisible ch = true
    · simp only [hvisible, ↓reduceIte]
      split
      · by_cases hblank : ch = ' '
        · subst hblank
          simpa [Ink.quotedFold] using FoldsEscaped.foldedBlank (hmore _ _)
        · have hfold (column : Nat) : FoldsEscaped indent (ch :: text) _ :=
            .fold hblank (.visible hvisible (hmore false column))
          simpa [Ink.quotedFold, hblank] using hfold _
      · exact .visible hvisible (hmore _ _)
    · simp only [hvisible, Bool.false_eq_true, ↓reduceIte, List.append_assoc]
      split
      · next hfolds =>
        by_cases hblank : text.headD endMark = ' '
        · obtain ⟨more, rfl⟩ : ∃ more, text = ' ' :: more := by
            cases text with
            | nil => exact absurd hblank (by decide)
            | cons d more => exact ⟨more, by rw [← hblank]; rfl⟩
          -- The blank that the second backslash keeps stands near the start of the line, or at the end.
          have hkept : (Ink.doubleQuotedRun indent split false true (indent + 1) (' ' :: more)).1 =
              ' ' :: (Ink.doubleQuotedRun indent split false false (indent + 2) more).1 := by
            have hblank' : Ink.isVisible ' ' = true := rfl
            have hnone : (more.isEmpty = false → ¬ Ink.bestWidth < indent + 1) := by
              intro hsome hwide
              simp only [Bool.and_eq_true, Bool.not_eq_true'] at hfolds
              rcases h hfolds.1.1.1 with hnarrow | hkeeps
              · omega
              · rw [hfolds.1.1.2, if_neg Bool.false_ne_true] at hkeeps
                exact hvisible (hkeeps [] ch more rfl (by simpa using hsome))
            rw [Ink.doubleQuotedRun]
            cases hempty : more.isEmpty with
            | true => simp [hblank']
            | false => simp [hblank', hnone hempty]
          have hnext := foldsEscaped_doubleQuotedRun split false false (indent + 2) more
            fun hsplit => (hrest hsplit).imp_right Ink.KeepsBlanks.tail
          simpa [Ink.quotedFold, hkept] using FoldsEscaped.escape (.foldedBlank hnext)
        · rw [List.headD_eq_head?_getD] at hblank
          simpa [Ink.quotedFold, hblank] using
            FoldsEscaped.escape (.fold (by simpa using hblank) (hmore true indent))
      · exact .escape (hmore _ _)
termination_by text.length

section FoldsEscaped

variable {indent : Nat}

/-- What is written for a text that does not begin with a blank begins with a character of a word. -/
theorem FoldsEscaped.exists_head (h : FoldsEscaped indent text written)
    (hhead : text.headD endMark ≠ ' ') (rest : List Char) :
    ∃ ch more, written ++ '"' :: rest = ch :: more ∧ IsWordChar ch := by
  cases h with
  | nil => exact ⟨'"', rest, rfl, by decide⟩
  | visible hch h => exact ⟨_, _, rfl, (isWordChar_of_isVisible hch hhead).1⟩
  | @escape ch text written h =>
    obtain ⟨name, hescape, -⟩ := exists_escape ch
    rw [hescape]
    exact ⟨'\\', _, rfl, by decide⟩
  | fold hnext h => exact ⟨'\\', _, rfl, by decide⟩
  | foldedBlank h => exact absurd rfl hhead

theorem FoldsEscaped.onPage (h : FoldsEscaped indent text written) : ∀ c ∈ written, OnPage c := by
  induction h with
  | nil => exact nofun
  | @visible ch text written hch h ih =>
    simp only [Ink.isVisible, Bool.and_eq_true, decide_eq_true_eq] at hch
    simp only [List.forall_mem_cons]
    exact ⟨.inr ⟨hch.1.1.1, hch.1.1.2⟩, ih⟩
  | @escape ch text written h ih =>
    obtain ⟨name, hescape, -, hname⟩ := exists_escape ch
    simp only [hescape, List.forall_mem_append, List.forall_mem_cons]
    exact ⟨⟨.inr (by decide), fun d hd => .inr (hname d hd).1⟩, ih⟩
  | fold hnext h ih =>
    simp only [List.forall_mem_append, List.forall_mem_cons]
    exact ⟨.inr (by decide), .inl rfl, fun c hc => onPage_of_mem_replicate hc, ih⟩
  | foldedBlank h ih =>
    simp only [List.forall_mem_append, List.forall_mem_cons]
    exact ⟨.inr (by decide), .inl rfl, fun c hc => onPage_of_mem_replicate hc, .inr (by decide),
      .inr (by decide), ih⟩

theorem FoldsEscaped.wordAhead (h : FoldsEscaped indent text written) (rest : List Char) :
    WordAhead (written ++ '"' :: rest) := by
  induction h with
  | nil => exact wordAhead_cons (by decide) rest
  | @visible ch text written hch h ih =>
    by_cases hblank : ch = ' '
    · exact hblank ▸ ih.blank
    · exact wordAhead_cons (isWordChar_of_isVisible hch hblank).1 _
  | @escape ch text written h ih =>
    obtain ⟨name, hescape, -⟩ := exists_escape ch
    rw [hescape]
    exact wordAhead_cons (by decide) _
  | fold hnext h ih => exact wordAhead_cons (by decide) _
  | foldedBlank h ih => exact wordAhead_cons (by decide) _

/-- **A text in double quotes reads back.** -/
theorem readsQuoted_foldsEscaped (h : FoldsEscaped indent text written) (hindent : 0 < indent)
    (hrest : c.rest = written ++ '"' :: rest) :
    ReadsQuoted true c text (c.skip (written.length + 1)) := by
  induction h generalizing c with
  | nil => exact readsQuoted_close hrest nofun
  | @visible ch text written hch h ih =>
    have hnext := ih (c := c.next) (by rw [Cursor.rest_next, hrest]; rfl)
    by_cases hblank : ch = ' '
    · subst hblank
      exact hnext.blank hrest (h.wordAhead rest)
    · obtain ⟨hword, hquote, hbackslash⟩ := isWordChar_of_isVisible hch hblank
      exact hnext.char hrest hword hquote fun _ => hbackslash
  | @escape ch text written h ih =>
    obtain ⟨name, hescape, hname, -⟩ := exists_escape ch
    rw [hescape, List.append_assoc] at hrest
    have hafter : (c.skip ('\\' :: name).length).rest = written ++ '"' :: rest :=
      Cursor.rest_skip_length hrest
    have hnext := ih hafter
    rw [List.length_cons] at hnext
    rw [← Cursor.skip_add] at hnext
    have hread := hnext.escape hrest hname
    simpa [hescape, Nat.add_assoc, Nat.add_comm, Nat.add_left_comm] using hread
  | @fold text written hhead h ih =>
    have hnext := ih (c := c.skip (indent + 2)) (by
      have hskip : (c.skip ('\\' :: '\n' :: List.replicate indent ' ').length).rest =
          written ++ '"' :: rest := Cursor.rest_skip_length (by simp [hrest])
      simpa using hskip)
    rw [← Cursor.skip_add] at hnext
    obtain ⟨ch, more, hmore, hch⟩ := h.exists_head hhead rest
    rw [List.cons_append, List.cons_append, List.append_assoc, hmore] at hrest
    have hread := hnext.fold hrest hch hindent
    simpa [Nat.add_assoc, Nat.add_comm, Nat.add_left_comm] using hread
  | @foldedBlank text written h ih =>
    have hnext := ih (c := c.skip (indent + 4)) (by
      have hskip :
          (c.skip ('\\' :: '\n' :: (List.replicate indent ' ' ++ ['\\', ' '])).length).rest =
            written ++ '"' :: rest := Cursor.rest_skip_length (by simp [hrest])
      simpa using hskip)
    rw [← Cursor.skip_add] at hnext
    rw [List.cons_append, List.cons_append, List.append_assoc, List.cons_append, List.cons_append]
      at hrest
    have hread := hnext.foldedBlank hrest hindent
    simpa [Nat.add_assoc, Nat.add_comm, Nat.add_left_comm] using hread

end FoldsEscaped

end DevMachines.Yaml
