import Mathlib.Data.Bool.AllAny
import Mathlib.Data.List.Basic
import DevMachines.Yaml.Token.Cursor

/-!
# How a cursor moves over a page

A page is made of line feeds and of characters that take a column each.  Over such characters the
place of a cursor is a matter of counting, and this file says how: what remains is what has not been
skipped, a character that takes a column moves the cursor by one, and a line feed takes it to the
start of the next line.

Main statements: `skip_columns` for a stretch of one line, `skip_newline` for a line feed with the
indentation after it, and `span_eq` for a stretch of a class of characters.
-/

namespace DevMachines.Yaml

/-- A character that takes a column: a blank, or a visible character of ASCII. -/
def TakesColumn (c : Char) : Prop := ' ' ≤ c ∧ c ≤ '~'

instance : DecidablePred TakesColumn := fun c => inferInstanceAs (Decidable (' ' ≤ c ∧ c ≤ '~'))

theorem TakesColumn.bounds {c : Char} (h : TakesColumn c) : 0x20 ≤ c.toNat ∧ c.toNat ≤ 0x7e := by
  obtain ⟨hlow, hhigh⟩ := h
  rw [Char.le_def, UInt32.le_iff_toNat_le] at hlow hhigh
  exact ⟨hlow, hhigh⟩

/-- Two characters with different numbers are different. -/
theorem ne_of_toNat_ne {c d : Char} (h : c.toNat ≠ d.toNat) : c ≠ d := fun heq => h (heq ▸ rfl)

theorem TakesColumn.not_isBreakOrEnd {c : Char} (h : TakesColumn c) : isBreakOrEnd c = false := by
  have hbounds := h.bounds
  have hne : ∀ {d : Char}, d.toNat < 0x20 ∨ 0x7e < d.toNat → c ≠ d :=
    fun hd => ne_of_toNat_ne (by omega)
  simp [isBreakOrEnd, isBreak, endMark, hne (by decide : '\x00'.toNat < 0x20 ∨ _),
    hne (by decide : '\n'.toNat < 0x20 ∨ _), hne (by decide : '\r'.toNat < 0x20 ∨ _),
    hne (by decide : '\u0085'.toNat < 0x20 ∨ _), hne (by decide : '\u2028'.toNat < 0x20 ∨ _),
    hne (by decide : '\u2029'.toNat < 0x20 ∨ _)]

theorem TakesColumn.not_isBreak {c : Char} (h : TakesColumn c) : isBreak c = false := by
  have hc := h.not_isBreakOrEnd
  rw [isBreakOrEnd, Bool.or_eq_false_iff] at hc
  exact hc.2

theorem TakesColumn.ne_endMark {c : Char} (h : TakesColumn c) : c ≠ endMark := by
  have hc := h.not_isBreakOrEnd
  rw [isBreakOrEnd, Bool.or_eq_false_iff] at hc
  exact ne_of_beq_false hc.1

/-- Of the characters that take a column only the blank does not belong to a word. -/
theorem TakesColumn.isSpaceOrEnd {c : Char} (h : TakesColumn c) : isSpaceOrEnd c = (c == ' ') := by
  have htab : c ≠ '\t' := ne_of_toNat_ne (by have := h.bounds; have : '\t'.toNat = 9 := rfl; omega)
  simp [Yaml.isSpaceOrEnd, isBlankBreakOrEnd, h.not_isBreakOrEnd, htab]

theorem takesColumn_blank : TakesColumn ' ' := by decide

theorem ne_newline_of_takesColumn {ch : Char} (h : TakesColumn ch) : ch ≠ '\n' := by
  rintro rfl
  exact absurd h (by decide)

/-- What stands behind the indentation of a line on which a token begins, or at the end: neither more
space nor a comment, and no separator of documents. -/
structure BeginsToken (rest : List Char) : Prop where
  not_blank : rest.headD endMark ≠ ' '
  not_comment : rest.headD endMark ≠ '#'
  not_break : isBreak (rest.headD endMark) = false
  no_hyphens : ¬ ['-', '-', '-'].isPrefixOf rest
  no_dots : ¬ ['.', '.', '.'].isPrefixOf rest

theorem takesColumn_of_mem_replicate {n : Nat} {c : Char} (h : c ∈ List.replicate n ' ') :
    TakesColumn c :=
  List.eq_of_mem_replicate h ▸ takesColumn_blank

namespace Cursor

variable {c : Cursor} {ch : Char} {cs rest : List Char}

theorem here_eq (h : c.rest = ch :: rest) : c.here = ch := by simp [here, h]

theorem peek_one (h : c.rest = ch :: rest) : c.peek 1 = rest.headD endMark := by
  cases rest <;> simp [peek, h]

/-! ## Moving on -/

theorem next_of_takesColumn (h : c.rest = ch :: rest) (hch : TakesColumn ch) :
    c.next = ⟨rest, c.index + 1, c.line, c.column + 1⟩ := by
  have hmark : ch ≠ '\ufeff' :=
    ne_of_toNat_ne (by have := hch.bounds; have : '\ufeff'.toNat = 0xfeff := rfl; omega)
  simp [next, h, hch.not_isBreak, hmark]

theorem next_of_newline (h : c.rest = '\n' :: rest) :
    c.next = ⟨rest, c.index + 1, c.line + 1, 0⟩ := by
  simp [next, h, isBreak]

theorem rest_next (c : Cursor) : c.next.rest = c.rest.tail := by
  unfold next
  split
  · next h => simp [h]
  · next h => split_ifs <;> simp [h]

theorem line_le_next (c : Cursor) : c.line ≤ c.next.line := by
  unfold next
  split
  · exact Nat.le_refl _
  · split_ifs <;> simp

theorem skip_zero (c : Cursor) : c.skip 0 = c := rfl

theorem skip_succ (n : Nat) (c : Cursor) : c.skip (n + 1) = c.next.skip n := rfl

theorem skip_add (m n : Nat) (c : Cursor) : c.skip (m + n) = (c.skip m).skip n := by
  induction m generalizing c with
  | zero => rw [Nat.zero_add, skip_zero]
  | succ m ih => rw [Nat.succ_add, skip_succ, skip_succ, ih]

theorem rest_skip (n : Nat) (c : Cursor) : (c.skip n).rest = c.rest.drop n := by
  induction n generalizing c with
  | zero => rfl
  | succ n ih => rw [skip_succ, ih, rest_next, List.drop_tail]

theorem rest_skip_length (h : c.rest = cs ++ rest) : (c.skip cs.length).rest = rest := by
  rw [rest_skip, h, List.drop_left]

theorem line_le_skip (n : Nat) (c : Cursor) : c.line ≤ (c.skip n).line := by
  induction n generalizing c with
  | zero => exact Nat.le_refl _
  | succ n ih => exact Nat.le_trans (line_le_next c) (ih c.next)

theorem length_rest_skip_le (n : Nat) (c : Cursor) : (c.skip n).rest.length ≤ c.rest.length := by
  rw [rest_skip, List.length_drop]
  omega

/-- Over a stretch of one line a cursor moves by its length. -/
theorem skip_columns (h : c.rest = cs ++ rest) (hcs : ∀ ch ∈ cs, TakesColumn ch) :
    c.skip cs.length = ⟨rest, c.index + cs.length, c.line, c.column + cs.length⟩ := by
  induction cs generalizing c with
  | nil =>
    obtain ⟨remaining, index, line, column⟩ := c
    simp only [List.nil_append] at h
    simp [skip_zero, h]
  | cons ch cs ih =>
    have hnext := next_of_takesColumn h (hcs ch (by simp))
    rw [List.length_cons, skip_succ, ih (by rw [hnext]; rfl) fun d hd => hcs d (by simp [hd]), hnext]
    simp [Nat.add_comm, Nat.add_left_comm]

theorem skip_mark (h : c.rest = ch :: rest) (hch : TakesColumn ch) :
    c.skip 1 = ⟨rest, c.index + 1, c.line, c.column + 1⟩ := next_of_takesColumn h hch

/-- Over blanks a cursor moves by their number. -/
theorem skip_blanks {n : Nat} (h : c.rest = List.replicate n ' ' ++ rest) :
    c.skip n = ⟨rest, c.index + n, c.line, c.column + n⟩ := by
  have hskip := skip_columns h fun ch hch => takesColumn_of_mem_replicate hch
  rwa [List.length_replicate] at hskip

/-- A line feed and an indentation take a cursor to that column of the next line. -/
theorem skip_newline {k : Nat} (h : c.rest = '\n' :: (List.replicate k ' ' ++ rest)) :
    c.skip (k + 1) = ⟨rest, c.index + (k + 1), c.line + 1, k⟩ := by
  have hnext := next_of_newline h
  rw [skip_succ, skip_blanks (by rw [hnext]), hnext]
  simp [Nat.add_comm, Nat.add_left_comm]

/-! ## Stretches of a class of characters -/

theorem takeWhile_append_eq {p : Char → Bool} (hcs : ∀ ch ∈ cs, p ch)
    (hrest : rest = [] ∨ p (rest.headD endMark) = false) : (cs ++ rest).takeWhile p = cs := by
  rw [List.takeWhile_append_of_pos hcs]
  cases rest with
  | nil => simp
  | cons d ds => simp [show p d = false by simpa using hrest]

theorem span_eq {p : Char → Bool} (h : c.rest = cs ++ rest) (hcs : ∀ ch ∈ cs, p ch)
    (hrest : rest = [] ∨ p (rest.headD endMark) = false) : c.span p = (cs, c.skip cs.length) := by
  have htaken := takeWhile_append_eq hcs hrest
  simp [span, h, htaken]

theorem skipWhile_eq {p : Char → Bool} (h : c.rest = cs ++ rest) (hcs : ∀ ch ∈ cs, p ch)
    (hrest : rest = [] ∨ p (rest.headD endMark) = false) : c.skipWhile p = c.skip cs.length := by
  rw [skipWhile, span_eq h hcs hrest]

theorem length_rest_skipWhile_le (p : Char → Bool) (c : Cursor) :
    (c.skipWhile p).rest.length ≤ c.rest.length :=
  length_rest_skip_le _ c

theorem skipWhile_blanks {n : Nat} (h : c.rest = List.replicate n ' ' ++ rest)
    (hrest : rest.headD endMark ≠ ' ') : c.skipWhile (· == ' ') = c.skip n := by
  have hskip := skipWhile_eq (p := (· == ' ')) h
    (fun ch hch => by simp [List.eq_of_mem_replicate hch]) (.inr (by simpa using hrest))
  rwa [List.length_replicate] at hskip

theorem span_blanks {n : Nat} (h : c.rest = List.replicate n ' ' ++ rest)
    (hrest : rest.headD endMark ≠ ' ') :
    c.span (· == ' ') = (List.replicate n ' ', c.skip n) := by
  have hspan := span_eq (p := (· == ' ')) h
    (fun ch hch => by simp [List.eq_of_mem_replicate hch]) (.inr (by simpa using hrest))
  rwa [List.length_replicate] at hspan

/-! ## Line breaks and separators -/

theorem lineBreak_of_newline (h : c.rest = '\n' :: rest) : c.lineBreak = some ('\n', c.next) := by
  simp [lineBreak, here_eq h]

theorem lineBreak_eq_none (h : isBreak c.here = false) : c.lineBreak = none := by
  simp only [isBreak, Bool.or_eq_false_iff] at h
  simp [lineBreak, h]

theorem length_rest_lineBreak_le {br : Char} {c' : Cursor} (h : c.lineBreak = some (br, c')) :
    c'.rest.length ≤ c.rest.length := by
  have hone := length_rest_skip_le 1 c
  have htwo := length_rest_skip_le 2 c
  simp only [lineBreak] at h
  split_ifs at h <;> cases h
  · exact htwo
  · exact hone
  · exact hone

/-- A separator of documents is three hyphens or three dots. -/
theorem atSeparator_eq_false (h : ¬ ['-', '-', '-'].isPrefixOf c.rest)
    (h' : ¬ ['.', '.', '.'].isPrefixOf c.rest) : c.atSeparator = false := by
  obtain ⟨remaining, index, line, column⟩ := c
  match remaining with
  | [] => rfl
  | [a] => simp [atSeparator, atMarker, here, peek, endMark]
  | [a, b] => simp [atSeparator, atMarker, here, peek, endMark]
  | a :: b :: d :: rest =>
    simp only [List.isPrefixOf, Bool.and_true, Bool.not_eq_true] at h h'
    simp only [atSeparator, atMarker, here, peek, List.headD_cons, List.getD_cons_succ,
      List.getD_cons_zero, Bool.or_eq_false_iff]
    grind

theorem atSeparator_of_beginsToken (h : BeginsToken c.rest) : c.atSeparator = false :=
  atSeparator_eq_false h.no_hyphens h.no_dots

theorem atSeparator_of_blank (h : c.rest = ' ' :: rest) : c.atSeparator = false :=
  atSeparator_eq_false (by simp [h, List.isPrefixOf]) (by simp [h, List.isPrefixOf])

theorem atSeparator_of_newline (h : c.rest = '\n' :: rest) : c.atSeparator = false :=
  atSeparator_eq_false (by simp [h, List.isPrefixOf]) (by simp [h, List.isPrefixOf])

end Cursor
end DevMachines.Yaml
