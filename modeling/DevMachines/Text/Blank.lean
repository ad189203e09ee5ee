/-!
# Blanks

Which characters count as white space, and what is left of a text when the white space at its ends
is removed.  The class is the one of the Unicode bidirectional categories for blanks and
separators, together with the four information separators of ASCII; the zero-width blanks are not
in it.

Trimming is written on lists of characters, where it is `dropWhile` from both ends.
-/

namespace DevMachines.Text

/-- White space: the ASCII blanks and separators, and the blanks of the other scripts. -/
def isBlank (c : Char) : Bool :=
  let n := c.toNat
  (0x09 ≤ n && n ≤ 0x0d) || (0x1c ≤ n && n ≤ 0x20) || n == 0x85 || n == 0xa0 || n == 0x1680 ||
    (0x2000 ≤ n && n ≤ 0x200a) || n == 0x2028 || n == 0x2029 || n == 0x202f || n == 0x205f ||
    n == 0x3000

/-- Removes the blanks at the front. -/
def trimStart (cs : List Char) : List Char := cs.dropWhile isBlank

/-- Removes the blanks at the end. -/
def trimEnd (cs : List Char) : List Char := (cs.reverse.dropWhile isBlank).reverse

/-- Removes the blanks at both ends. -/
def trim (cs : List Char) : List Char := trimEnd (trimStart cs)

/-- Removes the blanks at both ends of a text. -/
def trimmed (text : String) : String := String.ofList (trim text.toList)

/-- Does a text consist of blanks only?  The empty text does. -/
def isAllBlank (text : String) : Bool := text.toList.all isBlank

/-- Every blank of the core library is one here. -/
theorem isBlank_of_isWhitespace {c : Char} (h : c.isWhitespace = true) : isBlank c = true := by
  simp only [Char.isWhitespace, Bool.or_eq_true, decide_eq_true_eq] at h
  rcases h with ((rfl | rfl) | rfl) | rfl <;> decide

@[simp] theorem trimStart_nil : trimStart [] = [] := rfl

@[simp] theorem trim_nil : trim [] = [] := rfl

theorem trimStart_cons_of_blank {c : Char} (h : isBlank c = true) (cs : List Char) :
    trimStart (c :: cs) = trimStart cs :=
  List.dropWhile_cons_of_pos h

theorem trimStart_cons_of_not_blank {c : Char} (h : ¬ isBlank c = true) (cs : List Char) :
    trimStart (c :: cs) = c :: cs :=
  List.dropWhile_cons_of_neg h

/-- Blanks at the front are removed at once. -/
@[simp] theorem trimStart_trimStart (cs : List Char) : trimStart (trimStart cs) = trimStart cs := by
  induction cs with
  | nil => rfl
  | cons c cs ih =>
    by_cases hblank : isBlank c = true
    · rw [trimStart_cons_of_blank hblank, ih]
    · rw [trimStart_cons_of_not_blank hblank, trimStart_cons_of_not_blank hblank]

theorem trimStart_eq_nil_iff {cs : List Char} : trimStart cs = [] ↔ cs.all isBlank = true := by
  induction cs with
  | nil => exact ⟨fun _ => rfl, fun _ => rfl⟩
  | cons c cs ih =>
    by_cases hblank : isBlank c = true
    · rw [trimStart_cons_of_blank hblank, List.all_cons, hblank, Bool.true_and, ih]
    · rw [trimStart_cons_of_not_blank hblank, List.all_cons, Bool.eq_false_iff.mpr hblank]
      exact ⟨nofun, nofun⟩

/-- Nothing is left exactly if there are only blanks. -/
theorem trim_eq_nil_iff {cs : List Char} : trim cs = [] ↔ cs.all isBlank = true := by
  rw [trim, trimEnd, List.reverse_eq_nil_iff, ← trimStart, trimStart_eq_nil_iff, List.all_reverse,
    ← trimStart_eq_nil_iff, trimStart_trimStart, trimStart_eq_nil_iff]

/-- A text is trimmed to nothing exactly if it is blank. -/
theorem isEmpty_trimmed (text : String) : (trimmed text).isEmpty = isAllBlank text := by
  rw [Bool.eq_iff_iff, trimmed, isAllBlank, ← trim_eq_nil_iff, String.isEmpty_iff]
  exact String.ofList_eq_empty_iff

end DevMachines.Text
