import DevMachines.Proofs.Terminal.Verbatim
import Mathlib.Data.List.Chain

/-!
# Texts that are put together from parts

A line on the console is put together from parts that come from outside: some are taken as they are,
others are escaped first.  `displays_parts_iff` says exactly when all of them are displayed as they
came.

Between two parts there has to be something that has nothing to do with markup (`Apart`).  Then a
part can only spoil what is shown in two ways: by one of its own brackets, and, if it is escaped, by
the backslash that is put behind a single one at its end.  That backslash is meant to be read before
a tag; before anything else it is shown.
-/

namespace DevMachines
namespace Terminal

/-- A part of a text with markup. -/
inductive Part where
  /-- Characters that are taken as they are. -/
  | raw (chars : List Char)
  /-- Characters that are escaped. -/
  | escaped (chars : List Char)
  deriving DecidableEq, Repr

namespace Part

/-- What a part contributes to the markup. -/
def markup : Part → List Char
  | raw cs => cs
  | escaped cs => escape cs

/-- What a part should contribute to the display. -/
def text : Part → List Char
  | raw cs => cs
  | escaped cs => cs

/-- Is a part displayed as it is, in front of a text? -/
def IsLiteral (rest : List Char) : Part → Prop
  | raw cs => EachBracket (StaysText rest) none cs
  | escaped cs => EachBracket (StaysEscaped rest) none cs ∧ slashesAfter 0 cs ≠ 1

instance (rest : List Char) : DecidablePred (IsLiteral rest)
  | raw _ => inferInstanceAs (Decidable (EachBracket _ _ _))
  | escaped _ => inferInstanceAs (Decidable (_ ∧ _))

/-- May the second part follow the first?  No backslashes stand between the two, and an escaped part
is followed by a character that has nothing to do with markup. -/
def Apart : Part → Part → Prop
  | raw cs, _ => slashesAfter 0 cs = 0
  | escaped _, raw (c :: _) => c ≠ '[' ∧ c ≠ '\\' ∧ startsTag c = false
  | escaped _, _ => False

end Part

/-- The markup of parts. -/
def markupOf (ps : List Part) : List Char := ps.flatMap Part.markup

/-- The text that parts should display. -/
def textOf (ps : List Part) : List Char := ps.flatMap Part.text

/-- Is every part displayed as it is? -/
def AreLiteral : List Part → Prop
  | [] => True
  | p :: ps => p.IsLiteral (textOf ps) ∧ AreLiteral ps

instance AreLiteral.decidable : DecidablePred AreLiteral
  | [] => .isTrue trivial
  | _ :: ps =>
      have := AreLiteral.decidable ps
      inferInstanceAs (Decidable (_ ∧ _))

section Parts

variable {p : Part} {ps qs : List Part} {cs : List Char}

@[simp] theorem markupOf_cons (p : Part) (ps : List Part) :
    markupOf (p :: ps) = p.markup ++ markupOf ps := rfl

@[simp] theorem textOf_cons (p : Part) (ps : List Part) :
    textOf (p :: ps) = p.text ++ textOf ps := rfl

/-- What stands behind an escaped part: nothing, or a character that stays as it is whatever stands
around it. -/
theorem behind_escaped (h : (Part.escaped cs :: ps).IsChain Part.Apart) :
    ps = [] ∨ ∃ (c : Char) (after : List Char) (qs : List Part),
      ps = .raw (c :: after) :: qs ∧ c ≠ '[' ∧ c ≠ '\\' ∧ startsTag c = false := by
  cases ps with
  | nil => exact Or.inl rfl
  | cons p qs =>
    have hapart := (List.isChain_cons_cons.mp h).1
    cases p with
    | escaped next => exact hapart.elim
    | raw next =>
      cases next with
      | nil => exact hapart.elim
      | cons c after => exact Or.inr ⟨c, after, qs, rfl, hapart⟩

/-- Nothing that may stand behind an escaped part begins a tag. -/
theorem tagBody_behind_escaped (h : (Part.escaped cs :: ps).IsChain Part.Apart) :
    tagBody (textOf ps) = none := by
  obtain rfl | ⟨c, after, qs, rfl, -, -, hstarts⟩ := behind_escaped h
  · rfl
  · exact tagBody_eq_none_iff.mpr fun hyes => by rw [hstarts] at hyes; cases hyes

/-- The backslash that is put behind an escaped part changes no brackets. -/
theorem sameBrackets_slash (h : (Part.escaped cs :: ps).IsChain Part.Apart)
    (hrest : SameBrackets (markupOf ps) (textOf ps)) :
    SameBrackets (List.replicate (if slashesAfter 0 cs = 1 then 1 else 0) '\\' ++ markupOf ps)
      (textOf ps) := by
  split
  · exact hrest.backslash (tagBody_behind_escaped h)
  · exact hrest

/-- The markup of parts has the brackets of their text. -/
theorem sameBrackets_parts (h : ps.IsChain Part.Apart) :
    SameBrackets (markupOf ps) (textOf ps) := by
  induction ps with
  | nil => exact SameBrackets.refl []
  | cons p ps ih =>
    have hrest := ih h.of_cons
    cases p with
    | raw cs => exact hrest.append cs
    | escaped cs =>
      rw [markupOf_cons, Part.markup, escape_eq, List.append_assoc]
      exact (sameBrackets_slash h hrest).escapeFrom (Nat.lt_succ_self cs.length) 0

/-- Backslashes in front of parts that may stand behind an escaped one are all displayed. -/
theorem displays_behind_escaped_iff (h : (Part.escaped cs :: ps).IsChain Part.Apart)
    {opened : List String} {n k : Nat} :
    Displays opened n (markupOf ps) (List.replicate k '\\' ++ textOf ps) ↔
      n = k ∧ Displays opened 0 (markupOf ps) (textOf ps) := by
  obtain rfl | ⟨c, after, qs, rfl, hopen, hslash, -⟩ := behind_escaped h
  · have hend : ∀ {n : Nat} {shown : List Char},
        Displays opened n (markupOf []) shown ↔ shown = List.replicate n '\\' := displays_nil_iff
    rw [hend, hend, textOf, List.flatMap_nil, List.append_nil, List.replicate_inj]
    simp [eq_comm]
  · have hother : ∀ {n k : Nat}, Displays opened n (c :: (after ++ markupOf qs))
        (List.replicate k '\\' ++ c :: (after ++ textOf qs)) ↔
          n = k ∧ Displays opened 0 (after ++ markupOf qs) (after ++ textOf qs) :=
      displays_other_iff hslash hopen
    have hfront := hother (n := 0) (k := 0)
    rw [markupOf_cons, textOf_cons, Part.markup, Part.text, List.cons_append, List.cons_append,
      hother]
    exact and_congr_right fun _ => (hfront.trans (and_iff_right rfl)).symm

/-- **Parts are displayed as they came exactly if each of them is literal.** -/
theorem displays_parts_iff (h : ps.IsChain Part.Apart) {opened : List String} :
    Displays opened 0 (markupOf ps) (textOf ps) ↔ AreLiteral ps := by
  induction ps with
  | nil => exact iff_of_true (.finish opened 0) trivial
  | cons p ps ih =>
    have hrest := ih h.of_cons
    have hbefore : (none : Option Char) = some '\\' ↔ 0 ≠ 0 := by simp
    rw [AreLiteral, ← hrest, markupOf_cons, textOf_cons]
    cases p with
    | raw cs =>
      have hraw := @displays_append_iff opened 0 none _ _ cs (sameBrackets_parts h.of_cons) hbefore
      rw [List.replicate_zero, List.nil_append] at hraw
      rw [Part.markup, Part.text, Part.IsLiteral, hraw]
      refine and_congr_right fun _ => ?_
      cases ps with
      | nil =>
        rw [textOf, List.flatMap_nil, List.append_nil]
        exact iff_of_true (.finish opened _) (.finish opened 0)
      | cons q qs =>
        have hslashes : slashesAfter 0 cs = 0 := (List.isChain_cons_cons.mp h).1
        rw [hslashes, List.replicate_zero, List.nil_append]
    | escaped cs =>
      have hbounds : Bounds
          (List.replicate (if slashesAfter 0 cs = 1 then 1 else 0) '\\' ++ markupOf ps)
          (textOf ps) := Or.inr (sameBrackets_slash h (sameBrackets_parts h.of_cons))
      have hescaped := @displays_escapeFrom_iff opened 0 none _ _ cs hbounds (cs.length + 1)
        (Nat.lt_succ_self cs.length) hbefore
      rw [List.replicate_zero, List.nil_append] at hescaped
      rw [Part.markup, Part.text, Part.IsLiteral, escape_eq, List.append_assoc, hescaped,
        displays_replicate_iff, displays_behind_escaped_iff h, and_assoc]
      refine and_congr_right fun _ => and_congr_left fun _ => ?_
      split <;> omega

/-- The markup of parts has no characters but backslashes that their text does not have. -/
theorem mem_markupOf {c : Char} (hc : c ∈ markupOf ps) : c = '\\' ∨ c ∈ textOf ps := by
  obtain ⟨p, hp, hc⟩ := List.mem_flatMap.mp hc
  have htext : c ∈ p.text → c ∈ textOf ps := fun h => List.mem_flatMap.mpr ⟨p, hp, h⟩
  cases p with
  | raw cs => exact Or.inr (htext hc)
  | escaped cs => exact (mem_escape hc).imp_right htext

/-- **Parts come out of rendering as they came in exactly if each of them is literal.** -/
theorem render_parts_iff (h : ps.IsChain Part.Apart)
    (hplain : ∀ c ∈ textOf ps, isTerminalControl c = false) :
    render (markupOf ps) = .ok (textOf ps) ↔ AreLiteral ps := by
  rw [render_eq_ok_iff_displays, displays_parts_iff h]
  intro c hc
  rcases mem_markupOf hc with rfl | hc
  · rfl
  · exact hplain c hc

end Parts

/-! ## Parts on several lines -/

/-- The parts of lines that stand below each other. -/
def lineParts (lines : List (List Part)) : List Part := List.intercalate [Part.raw ['\n']] lines

/-- May a line feed follow the parts of a line, and do the parts go together? -/
def IsLineOfParts (line : List Part) : Prop :=
  (line ++ [Part.raw ['\n']]).IsChain Part.Apart

section Lines

variable {lines : List (List Part)}

theorem isChain_lineParts (h : ∀ line ∈ lines, IsLineOfParts line) :
    (lineParts lines).IsChain Part.Apart := by
  induction lines with
  | nil => exact .nil
  | cons line lines ih =>
    rw [List.forall_mem_cons] at h
    cases lines with
    | nil =>
      rw [lineParts, List.intercalate_singleton]
      exact h.1.left_of_append
    | cons next lines =>
      -- behind a line feed anything may follow
      have hfeed : (Part.raw ['\n'] :: lineParts (next :: lines)).IsChain Part.Apart :=
        List.isChain_cons.mpr ⟨fun _ _ => rfl, ih h.2⟩
      rw [lineParts, List.intercalate_cons_cons, List.append_assoc]
      exact List.isChain_split.mpr ⟨h.1, hfeed⟩

/-- What parts contribute to a text, the parts of lines contribute line by line. -/
theorem flatMap_lineParts {f : Part → List Char} (hf : f (Part.raw ['\n']) = ['\n'])
    (lines : List (List Part)) :
    (lineParts lines).flatMap f = List.intercalate ['\n'] (lines.map (List.flatMap f)) := by
  induction lines with
  | nil => rfl
  | cons line lines ih =>
    cases lines with
    | nil => rw [lineParts, List.intercalate_singleton, List.map_singleton,
        List.intercalate_singleton]
    | cons next lines =>
      rw [lineParts, List.intercalate_cons_cons, List.flatMap_append, List.flatMap_append,
        ← lineParts, ih, List.flatMap_singleton, hf, List.map_cons, List.map_cons, List.map_cons,
        List.intercalate_cons_cons]

theorem markupOf_lineParts (lines : List (List Part)) :
    markupOf (lineParts lines) = List.intercalate ['\n'] (lines.map markupOf) :=
  flatMap_lineParts rfl lines

theorem textOf_lineParts (lines : List (List Part)) :
    textOf (lineParts lines) = List.intercalate ['\n'] (lines.map textOf) :=
  flatMap_lineParts rfl lines

end Lines

end Terminal
end DevMachines
