import DevMachines.Proofs.Terminal.Cells
import Mathlib.Data.List.DropRight

/-!
# Lines that fit

A text is laid out word by word, and what is laid out is judged by cells here and by characters
there.  `wrap_of_fits` says that this does no harm to lines that fit: a text of firm lines is laid out
as just these lines.

A firm line is plain, and its blanks at the end are safe: blanks are taken from the end of a line that
has more characters than there are cells, even if the line takes no more cells than that.

## Why the words of a line fit if the line does

A word takes the blanks behind it along, so every word but the last ends in a blank.  No blank is a
joiner, so the line takes at least the cells of its words (`cellCountFrom_add_le`).  It may take
more, but only the sum of the words is ever compared to the width.
-/

namespace DevMachines
namespace Terminal

/-! ## The words of a line -/

/-- Does a word end in a blank? -/
def EndsInBlank (word : List Char) : Prop :=
  ∃ (front : List Char) (c : Char), word = front ++ [c] ∧ Text.isBlank c = true

theorem EndsInBlank.append {word : List Char} (h : EndsInBlank word) (cs : List Char) :
    EndsInBlank (cs ++ word) := by
  obtain ⟨front, c, rfl, hc⟩ := h
  exact ⟨cs ++ front, c, (List.append_assoc ..).symm, hc⟩

theorem EndsInBlank.cons {word : List Char} (h : EndsInBlank word) (c : Char) :
    EndsInBlank (c :: word) := h.append [c]

/-- A line is cut into what it is made of, and every cut is behind a blank. -/
theorem cutAfterBlanks_spec (line : List Char) :
    cutAfterBlanks line ≠ [] ∧ (cutAfterBlanks line).flatten = line ∧
      ∀ word ∈ (cutAfterBlanks line).dropLast, EndsInBlank word := by
  fun_induction cutAfterBlanks line with
  | case1 => simp
  | case2 c => simp
  | case3 c d rest word words hcut hblank ih =>
    rw [hcut] at ih
    obtain ⟨-, hflatten, hends⟩ := ih
    refine ⟨List.cons_ne_nil _ _, ?_, ?_⟩
    · rw [List.flatten_cons, hflatten]
      rfl
    · rw [List.dropLast_cons_of_ne_nil (List.cons_ne_nil _ _), List.forall_mem_cons]
      rw [Bool.and_eq_true] at hblank
      exact ⟨⟨[], c, rfl, hblank.1⟩, hends⟩
  | case4 c d rest word words hcut hblank ih =>
    rw [hcut] at ih
    obtain ⟨-, hflatten, hends⟩ := ih
    refine ⟨List.cons_ne_nil _ _, ?_, ?_⟩
    · rw [List.flatten_cons] at hflatten ⊢
      rw [List.cons_append, hflatten]
    · cases words with
      | nil => simp
      | cons next words =>
        rw [List.dropLast_cons_of_ne_nil (List.cons_ne_nil _ _), List.forall_mem_cons] at hends ⊢
        exact ⟨hends.1.cons c, hends.2⟩
  | case5 c d rest hcut ih => exact absurd hcut ih.1

/-- A line that has words is made of them, and all words but the last end in a blank. -/
theorem words_spec (line : List Char) :
    words line = [] ∨ (words line).flatten = line ∧
      ∀ word ∈ (words line).dropLast, EndsInBlank word := by
  obtain ⟨hnil, hflatten, hends⟩ := cutAfterBlanks_spec line
  unfold words
  split
  · next first second rest hcut =>
    rw [hcut] at hflatten hends
    split
    · refine Or.inr ⟨?_, ?_⟩
      · simpa using hflatten
      · cases rest with
        | nil => simp
        | cons next rest =>
          simp only [List.dropLast_cons_of_ne_nil (List.cons_ne_nil _ _), List.forall_mem_cons]
            at hends ⊢
          exact ⟨hends.2.1.append first, hends.2.2⟩
    · exact Or.inr ⟨hflatten, hends⟩
  · next word hcut =>
    rw [hcut] at hflatten
    split
    · exact Or.inl rfl
    · exact Or.inr ⟨hflatten, by simp⟩
  · next hcut => exact absurd hcut hnil

/-! ## Filling a line -/

section Filling

variable {overflow : Overflow} {width : Nat}

/-- A word that ends in a blank and the text behind it take no more cells than both together. -/
theorem EndsInBlank.cellCount_add_le {word : List Char} (h : EndsInBlank word) (rest : List Char) :
    cellCount word + cellCount rest ≤ cellCount (word ++ rest) := by
  obtain ⟨front, c, rfl, hc⟩ := h
  have hjoiner : c ≠ joiner := by
    rintro rfl
    exact absurd hc (by decide)
  rw [List.append_assoc]
  exact cellCountFrom_add_le none hjoiner front rest

/-- A word without the blanks at its end takes no more cells than a text that begins with it. -/
theorem cellCount_trimEnd_le (word rest : List Char) :
    cellCount (Text.trimEnd word) ≤ cellCount (word ++ rest) := by
  obtain ⟨blanks, hblanks⟩ : Text.trimEnd word <+: word :=
    List.rdropWhile_prefix Text.isBlank word
  have hle := cellCountFrom_le_append none (Text.trimEnd word) (blanks ++ rest)
  rwa [← List.append_assoc, hblanks] at hle

/-- Words that fit on the line under way together are all written on it. -/
theorem foldl_addWord {words : List (List Char)} {f : Filling}
    (hends : ∀ word ∈ words.dropLast, EndsInBlank word)
    (hfits : f.used + cellCount words.flatten ≤ width) :
    ∃ used, words.foldl (Filling.addWord overflow width) f =
      { full := f.full, line := f.line ++ words.flatten, used } := by
  induction words generalizing f with
  | nil => exact ⟨f.used, by simp⟩
  | cons word words ih =>
    have hword := cellCount_trimEnd_le word words.flatten
    rw [List.flatten_cons] at hfits
    have hwrite : f.addWord overflow width word = f.write word := by
      unfold Filling.addWord
      exact if_pos (by omega)
    rw [List.foldl_cons, hwrite]
    cases words with
    | nil => exact ⟨f.used + cellCount word, by rw [List.flatten_singleton]; rfl⟩
    | cons next words =>
      rw [List.dropLast_cons_of_ne_nil (List.cons_ne_nil _ _), List.forall_mem_cons] at hends
      have hadd := hends.1.cellCount_add_le (next :: words).flatten
      have hused : (f.write word).used = f.used + cellCount word := rfl
      obtain ⟨used, hrest⟩ := ih (f := f.write word) hends.2 (by omega)
      have hline : (f.write word).line ++ (next :: words).flatten =
          f.line ++ (word :: next :: words).flatten := by
        rw [List.flatten_cons (l := word), ← List.append_assoc]
        rfl
      exact ⟨used, by rw [hrest, hline]; rfl⟩

/-- A line that fits is one line. -/
theorem fillLines_of_fits {line : List Char} (h : cellCount line ≤ width) :
    fillLines overflow width line = [line] := by
  rw [fillLines]
  split
  · rfl
  · next hnil =>
    obtain hnone | ⟨hflatten, hends⟩ := words_spec line
    · exact absurd hnone hnil
    · have hline : ({} : Filling).used + cellCount (words line).flatten ≤ width := by
        rwa [hflatten, Nat.zero_add]
      obtain ⟨used, hused⟩ := @foldl_addWord overflow width _ {} hends hline
      rw [hused, hflatten]
      rfl

end Filling

/-! ## Firm lines -/

/-- A plain line of which laying out takes no blanks away. -/
structure IsFirm (line : List Char) : Prop where
  plain : ∀ c ∈ line, IsPlain c
  keepsBlanks : line.length ≤ cellCount line ∨ ∀ c ∈ line.getLast?, Text.isBlank c = false

instance : DecidablePred IsFirm := fun line =>
  decidable_of_iff ((line.all fun c => decide (IsPlain c)) = true ∧
    (line.length ≤ cellCount line ∨ (line.getLast?.all fun c => !Text.isBlank c) = true))
    ⟨fun h => ⟨by simpa using h.1, by simpa [Option.all_eq_true] using h.2⟩,
      fun h => ⟨by simpa using h.plain, by simpa [Option.all_eq_true] using h.keepsBlanks⟩⟩

section Firm

variable {overflow : Overflow} {width : Nat} {line : List Char} {lines : List (List Char)}

theorem IsFirm.dropExcessBlanks (h : IsFirm line) (hfits : cellCount line ≤ width) :
    dropExcessBlanks width line = line := by
  rw [Terminal.dropExcessBlanks]
  obtain hlength | hlast := h.keepsBlanks
  · rw [Nat.sub_eq_zero_of_le (hlength.trans hfits), Nat.min_zero, Nat.sub_zero, List.take_length]
  · have hnone : line.reverse.takeWhile Text.isBlank = [] := by
      rcases List.eq_nil_or_concat line with rfl | ⟨front, c, rfl⟩
      · rfl
      · have hc := hlast c (by simp)
        simp [hc]
    rw [hnone, List.length_nil, Nat.zero_min, Nat.sub_zero, List.take_length]

/-- **Firm lines that fit are laid out as they are.** -/
theorem wrap_of_fits (hnil : lines ≠ []) (hfirm : ∀ line ∈ lines, IsFirm line)
    (hfits : ∀ line ∈ lines, cellCount line ≤ width) :
    wrap overflow width (List.intercalate ['\n'] lines) = lines := by
  have hlines := (lines_intercalate hnil fun line hline => (hfirm line hline).plain).1
  rw [wrap, hlines]
  have hone : ∀ line ∈ lines, ((fillLines overflow width (expandTabs line)).map fun line =>
      cutLine overflow width (dropExcessBlanks width line)) = [line] := by
    intro line hline
    have hline' := hfirm line hline
    rw [expandTabs_of_plain hline'.plain, fillLines_of_fits (hfits line hline),
      List.map_singleton, hline'.dropExcessBlanks (hfits line hline), cutLine.eq_def,
      if_pos (hfits line hline)]
  rw [List.flatMap_congr hone, List.flatMap_singleton']

end Firm

end Terminal
end DevMachines
