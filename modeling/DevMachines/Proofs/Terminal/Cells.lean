import DevMachines.Proofs.Terminal.Plain

/-!
# How much room texts take together

The cells of a text are not the cells of its parts: a joiner at the end of a part hides the first
character of the next one, and a selector in front of a part can widen what stands before it.  But
texts on a terminal meet at blanks and at the bars of a table, and there the two are close.

* `cellCount_add_le`: behind a character that is no joiner, a text takes at least the cells of its
  parts.  So if a line fits, all of its words fit.
* `cellCountFrom_append_solid_le`: in front of a blank or a bar, it takes at most the cells of its
  parts.  So a row fits if its columns do.
-/

namespace DevMachines
namespace Terminal

/-- The cell that a selector adds to the symbol before it. -/
def selectorCells (last : Option Char) : Nat :=
  if last.any fun l => Text.inRanges pictureRanges l.toNat then 1 else 0

/-! ## One character -/

section Step

variable {last : Option Char} {c : Char} {cs : List Char}

/-- A joiner takes no cell, and neither does the character behind it. -/
theorem cellCountFrom_joiner (last : Option Char) (cs : List Char) :
    cellCountFrom last (joiner :: cs) = cellCountFrom last (cs.drop 1) := by
  cases cs with
  | nil => rw [cellCountFrom, if_pos rfl, List.drop_nil, cellCountFrom]
  | cons d cs => rw [cellCountFrom, if_pos rfl, List.drop_succ_cons, List.drop_zero]

theorem cellCountFrom_selector (last : Option Char) (cs : List Char) :
    cellCountFrom last (pictureSelector :: cs) = selectorCells last + cellCountFrom none cs := by
  have hne : pictureSelector ≠ joiner := by decide
  cases cs with
  | nil => exact (cellCountFrom.eq_2 last _).trans ((if_neg hne).trans (if_pos rfl))
  | cons d cs => rw [cellCountFrom, if_neg hne, if_pos rfl]; rfl

theorem cellCountFrom_other (hjoiner : c ≠ joiner) (hselector : c ≠ pictureSelector)
    (last : Option Char) (cs : List Char) :
    cellCountFrom last (c :: cs) =
      cellWidth c + cellCountFrom (if cellWidth c = 0 then last else some c) cs := by
  cases cs with
  | nil => exact (cellCountFrom.eq_2 last _).trans ((if_neg hjoiner).trans (if_neg hselector))
  | cons d cs => rw [cellCountFrom, if_neg hjoiner, if_neg hselector]

theorem character_cases (c : Char) :
    c = joiner ∨ c = pictureSelector ∨ (c ≠ joiner ∧ c ≠ pictureSelector) := by
  tauto

theorem selectorCells_le (last : Option Char) : selectorCells last ≤ 1 := by
  unfold selectorCells
  split <;> decide

end Step

/-- A statement about the cells of texts holds if it holds of the rest of a text whatever is read
first; a joiner is read with the character behind it. -/
theorem cellInduction {p : List Char → Prop} (nil : p [])
    (cons : ∀ c cs, p cs → p (cs.drop 1) → p (c :: cs)) (cs : List Char) : p cs := by
  have hboth : p cs ∧ p (cs.drop 1) := by
    induction cs with
    | nil => exact ⟨nil, nil⟩
    | cons c cs ih => exact ⟨cons c cs ih.1 ih.2, ih.1⟩
  exact hboth.1

/-! ## What stands before -/

/-- Only a selector in front notices what stood before, and it is a matter of one cell. -/
theorem cellCountFrom_bounds (last : Option Char) (cs : List Char) :
    cellCountFrom none cs ≤ cellCountFrom last cs ∧
      cellCountFrom last cs ≤ cellCountFrom none cs + 1 := by
  induction cs using cellInduction generalizing last with
  | nil => simp [cellCountFrom]
  | cons c cs ih ihdrop =>
    rcases character_cases c with rfl | rfl | ⟨hjoiner, hselector⟩
    · rw [cellCountFrom_joiner, cellCountFrom_joiner]
      exact ihdrop last
    · have hone := selectorCells_le last
      rw [cellCountFrom_selector, cellCountFrom_selector, show selectorCells none = 0 from rfl]
      omega
    · rw [cellCountFrom_other hjoiner hselector, cellCountFrom_other hjoiner hselector]
      split
      · have hrest := ih last
        omega
      · omega

/-- The beginning of a text takes at most the cells of the text. -/
theorem cellCountFrom_le_append (last : Option Char) (cs rest : List Char) :
    cellCountFrom last cs ≤ cellCountFrom last (cs ++ rest) := by
  induction cs using cellInduction generalizing last with
  | nil => simp [cellCountFrom]
  | cons c cs ih ihdrop =>
    rw [List.cons_append]
    rcases character_cases c with rfl | rfl | ⟨hjoiner, hselector⟩
    · rw [cellCountFrom_joiner, cellCountFrom_joiner]
      cases cs with
      | nil => simp [cellCountFrom]
      | cons d cs => exact ihdrop last
    · rw [cellCountFrom_selector, cellCountFrom_selector]
      exact Nat.add_le_add_left (ih none) _
    · rw [cellCountFrom_other hjoiner hselector, cellCountFrom_other hjoiner hselector]
      exact Nat.add_le_add_left (ih _) _

/-- Behind a character that is no joiner, a text takes at least the cells of its parts. -/
theorem cellCountFrom_add_le (last : Option Char) {c : Char} (hc : c ≠ joiner)
    (cs rest : List Char) :
    cellCountFrom last (cs ++ [c]) + cellCountFrom none rest ≤
      cellCountFrom last (cs ++ c :: rest) := by
  induction cs using cellInduction generalizing last with
  | nil =>
    rw [List.nil_append, List.nil_append]
    by_cases hselector : c = pictureSelector
    · rw [hselector, cellCountFrom_selector, cellCountFrom_selector, cellCountFrom]
      omega
    · have hbounds := (cellCountFrom_bounds (if cellWidth c = 0 then last else some c) rest).1
      rw [cellCountFrom_other hc hselector, cellCountFrom_other hc hselector, cellCountFrom]
      omega
  | cons d cs ih ihdrop =>
    rw [List.cons_append, List.cons_append]
    rcases character_cases d with rfl | rfl | ⟨hjoiner, hselector⟩
    · rw [cellCountFrom_joiner, cellCountFrom_joiner]
      cases cs with
      | nil =>
        -- the joiner hides the character, so only the rest counts
        have hbounds := (cellCountFrom_bounds last rest).1
        simpa [cellCountFrom] using hbounds
      | cons e cs => exact ihdrop last
    · have hrest := ih none
      rw [cellCountFrom_selector, cellCountFrom_selector]
      omega
    · have hrest := ih (if cellWidth d = 0 then last else some d)
      rw [cellCountFrom_other hjoiner hselector, cellCountFrom_other hjoiner hselector]
      omega

/-! ## Blanks and bars -/

/-- A character that takes one cell and has nothing to do with its neighbours. -/
structure IsSolid (c : Char) : Prop where
  not_joiner : c ≠ joiner
  not_selector : c ≠ pictureSelector
  width : cellWidth c = 1
  not_picture : Text.inRanges pictureRanges c.toNat = false

instance : DecidablePred IsSolid := fun c =>
  decidable_of_iff (c ≠ joiner ∧ c ≠ pictureSelector ∧ cellWidth c = 1 ∧
    Text.inRanges pictureRanges c.toNat = false)
    ⟨fun ⟨h, h', h'', h'''⟩ => ⟨h, h', h'', h'''⟩, fun ⟨h, h', h'', h'''⟩ => ⟨h, h', h'', h'''⟩⟩

section Solid

variable {c : Char}

/-- What stands before a solid character makes no difference to what stands behind it. -/
theorem cellCountFrom_solid (h : IsSolid c) (last : Option Char) (cs : List Char) :
    cellCountFrom last (c :: cs) = cellCount cs + 1 := by
  have hpicture : selectorCells (some c) = 0 := by
    rw [selectorCells, Option.any_some, h.not_picture, if_neg Bool.false_ne_true]
  have hsame : cellCountFrom (some c) cs = cellCount cs := by
    rw [cellCount]
    induction cs using cellInduction with
    | nil => simp [cellCountFrom]
    | cons d cs ih ihdrop =>
      rcases character_cases d with rfl | rfl | ⟨hjoiner, hselector⟩
      · rw [cellCountFrom_joiner, cellCountFrom_joiner]
        exact ihdrop
      · rw [cellCountFrom_selector, cellCountFrom_selector, hpicture]
        rfl
      · rw [cellCountFrom_other hjoiner hselector, cellCountFrom_other hjoiner hselector]
        split
        · rw [ih]
        · rfl
  rw [cellCountFrom_other h.not_joiner h.not_selector, h.width, if_neg Nat.one_ne_zero, hsame,
    Nat.add_comm]

theorem cellCount_solid (h : IsSolid c) (cs : List Char) : cellCount (c :: cs) = cellCount cs + 1 :=
  cellCountFrom_solid h none cs

/-- In front of a solid character, a text takes at most the cells of its parts. -/
theorem cellCountFrom_append_solid_le (h : IsSolid c) (last : Option Char) (cs rest : List Char) :
    cellCountFrom last (cs ++ c :: rest) ≤ cellCountFrom last cs + cellCount (c :: rest) := by
  rw [cellCount_solid h]
  induction cs using cellInduction generalizing last with
  | nil =>
    rw [List.nil_append, cellCountFrom_solid h]
    omega
  | cons d cs ih ihdrop =>
    rw [List.cons_append]
    rcases character_cases d with rfl | rfl | ⟨hjoiner, hselector⟩
    · rw [cellCountFrom_joiner, cellCountFrom_joiner]
      cases cs with
      | nil =>
        have hbounds := (cellCountFrom_bounds last rest).2
        simp only [List.nil_append, List.drop_succ_cons, List.drop_zero, List.drop_nil, cellCount]
        omega
      | cons e cs => exact ihdrop last
    · have hrest := ih none
      rw [cellCountFrom_selector, cellCountFrom_selector]
      omega
    · have hrest := ih (if cellWidth d = 0 then last else some d)
      rw [cellCountFrom_other hjoiner hselector, cellCountFrom_other hjoiner hselector]
      omega

/-- A row of solid characters takes a cell for each of them. -/
theorem cellCount_replicate_append (h : IsSolid c) (n : Nat) (cs : List Char) :
    cellCount (List.replicate n c ++ cs) = n + cellCount cs := by
  induction n with
  | zero => rw [List.replicate_zero, List.nil_append, Nat.zero_add]
  | succ n ih =>
    rw [List.replicate_succ, List.cons_append, cellCount_solid h, ih]
    omega

end Solid

theorem isSolid_blank : IsSolid ' ' := by decide +kernel

/-- Blanks behind a text take at most a cell each. -/
theorem cellCount_append_blanks_le (cs : List Char) (n : Nat) :
    cellCount (cs ++ List.replicate n ' ') ≤ cellCount cs + n := by
  cases n with
  | zero => simp
  | succ n =>
    have hblanks := cellCount_replicate_append isSolid_blank (n + 1) []
    have hle := cellCountFrom_append_solid_le isSolid_blank none cs (List.replicate n ' ')
    rw [List.append_nil] at hblanks
    rw [← List.replicate_succ, hblanks] at hle
    exact hle

end Terminal
end DevMachines
