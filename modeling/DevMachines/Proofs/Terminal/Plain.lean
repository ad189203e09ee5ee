import DevMachines.Terminal.Markup
import DevMachines.Terminal.Table
import Mathlib.Data.List.Basic

/-!
# Plain texts

A plain text has no control characters, no tabs and no line breaks.  To a terminal that is one line,
and everything that looks for ends of lines or for tabs leaves it alone.

A line feed is no plain character.  A text of several lines is plain line by line, and
`lines_intercalate` finds its lines again.
-/

namespace DevMachines
namespace Terminal

/-- Neither a control character nor a line break. -/
def IsPlain (c : Char) : Prop :=
  ¬ (c.toNat < 0x20 ∨ (0x7f ≤ c.toNat ∧ c.toNat ≤ 0x9f) ∨ c.toNat = 0x2028 ∨ c.toNat = 0x2029)

instance : DecidablePred IsPlain := fun _ => inferInstanceAs (Decidable (¬ _))

/-- A text without control characters, tabs and line breaks. -/
def IsPlainText (text : String) : Prop := ∀ c ∈ text.toList, IsPlain c

-- By way of the text: a property of all characters can also be decided for each that there is.
instance : DecidablePred IsPlainText := fun text => List.decidableBAll IsPlain text.toList

section Characters

variable {c : Char}

theorem IsPlain.ne (h : IsPlain c) {d : Char} (hd : ¬ IsPlain d) : c ≠ d := by
  rintro rfl
  exact hd h

theorem IsPlain.not_endsLine (h : IsPlain c) : endsLine c = false := by
  unfold IsPlain at h
  simp only [endsLine, Bool.or_eq_false_iff, Bool.and_eq_false_iff, decide_eq_false_iff_not,
    beq_eq_false_iff_ne, ne_eq]
  omega

/-- A terminal does nothing about a plain character. -/
theorem IsPlain.not_isTerminalControl (h : IsPlain c) : isTerminalControl c = false := by
  simp [isTerminalControl, h.ne (d := '\x07') (by decide), h.ne (d := '\x08') (by decide),
    h.ne (d := '\x0b') (by decide), h.ne (d := '\x0c') (by decide), h.ne (d := '\r') (by decide)]

end Characters

/-! ## Cutting a text

Lines and the parts between tabs are cut alike: at every character of a class. -/

/-- What cuts before a text as it cuts the text, and at the characters of a class, cuts at those. -/
theorem eq_splitOnP {cut : List Char → List (List Char)} {ends : Char → Bool} (hnil : cut [] = [[]])
    (hcons : ∀ c cs part parts, cut cs = part :: parts →
      cut (c :: cs) = if ends c then [] :: part :: parts else (c :: part) :: parts)
    (cs : List Char) : cut cs = cs.splitOnP ends := by
  induction cs with
  | nil => exact hnil
  | cons c cs ih =>
    have hparts := List.splitOnP_ne_nil ends cs
    rw [List.splitOnP_cons_eq_if_modifyHead]
    generalize cs.splitOnP ends = parts at ih hparts
    cases parts with
    | nil => exact absurd rfl hparts
    | cons part parts => exact hcons c cs part parts ih

theorem splitLines_eq (cs : List Char) : splitLines cs = cs.splitOnP (· == '\n') := by
  refine eq_splitOnP rfl (fun c cs part parts h => ?_) cs
  simp only [splitLines, h, beq_iff_eq]

theorem measuredLines_eq (cs : List Char) : measuredLines cs = cs.splitOnP endsLine := by
  refine eq_splitOnP rfl (fun c cs part parts h => ?_) cs
  simp only [measuredLines, h]

theorem splitTabs_eq (cs : List Char) : splitTabs cs = cs.splitOnP (· == '\t') := by
  refine eq_splitOnP rfl (fun c cs part parts h => ?_) cs
  simp only [splitTabs, h, beq_iff_eq]

/-- Between its separators a text is cut into what it was put together from. -/
theorem splitOnP_intercalate {ends : Char → Bool} {d : Char} (hd : ends d = true)
    {parts : List (List Char)} (hnil : parts ≠ [])
    (h : ∀ part ∈ parts, ∀ c ∈ part, ends c = false) :
    (List.intercalate [d] parts).splitOnP ends = parts := by
  induction parts with
  | nil => exact absurd rfl hnil
  | cons part parts ih =>
    rw [List.forall_mem_cons] at h
    cases parts with
    | nil => rw [List.intercalate_singleton, List.splitOnP_eq_singleton h.1]
    | cons next parts =>
      rw [List.intercalate_cons_cons, List.append_assoc, List.singleton_append,
        List.splitOnP_append_cons_of_forall_mem h.1 d hd, ih (List.cons_ne_nil _ _) h.2]

section Lines

variable {cs : List Char} {lines : List (List Char)}

/-- **A text has the lines that it was put together from**, also when they are measured. -/
theorem lines_intercalate (hnil : lines ≠ []) (h : ∀ line ∈ lines, ∀ c ∈ line, IsPlain c) :
    splitLines (List.intercalate ['\n'] lines) = lines ∧
      measuredLines (List.intercalate ['\n'] lines) = lines := by
  rw [splitLines_eq, measuredLines_eq]
  constructor
  · refine splitOnP_intercalate rfl hnil fun line hline c hc => ?_
    exact beq_eq_false_iff_ne.mpr ((h line hline c hc).ne (by decide))
  · exact splitOnP_intercalate rfl hnil fun line hline c hc => (h line hline c hc).not_endsLine

theorem splitLines_of_plain (h : ∀ c ∈ cs, IsPlain c) : splitLines cs = [cs] := by
  rw [splitLines_eq]
  exact List.splitOnP_eq_singleton fun c hc => beq_eq_false_iff_ne.mpr ((h c hc).ne (by decide))

theorem expandTabs_of_plain (h : ∀ c ∈ cs, IsPlain c) : expandTabs cs = cs := by
  have hparts : splitTabs cs = [cs] := by
    rw [splitTabs_eq]
    exact List.splitOnP_eq_singleton fun c hc => beq_eq_false_iff_ne.mpr ((h c hc).ne (by decide))
  rw [expandTabs, hparts]
  rfl

/-- A plain text whose lines are left to the terminal is printed on one line. -/
theorem printedUnwrapped_of_plain (h : ∀ c ∈ cs, IsPlain c) :
    printedUnwrapped cs = String.ofList cs ++ "\n" := by
  rw [printedUnwrapped, splitLines_of_plain h, List.map_singleton, expandTabs_of_plain h,
    printedLines, List.flatMap_singleton, String.ofList_append]

end Lines

end Terminal
end DevMachines
