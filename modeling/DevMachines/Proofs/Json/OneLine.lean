import DevMachines.Proofs.Json.Layout

/-!
# JSON on one line

A value that is written on one line stays there: all its characters are printable ASCII, whatever its
texts and doubles are.  And the line is a JSON text that denotes the value.

Main statements: `isPrintable_compact` and `parse_compact`.
-/

namespace DevMachines
namespace Json

/-! ## The characters of doubles -/

section Doubles

open Binary64

/-- The digits of a decimal in normal form are digits of a number. -/
theorem mem_digits_ofScaled {n : Nat} {exponent : Int} {c : Char}
    (h : c ∈ (Decimal.ofScaled n exponent).digits) : c ∈ Nat.toDigits 10 n := by
  have hdropped := List.mem_reverse.mp h
  exact List.mem_reverse.mp ((List.dropWhile_sublist _).subset hdropped)

/-- Whatever decimal is found, it is one in normal form. -/
theorem exists_searchLengths (units : Nat) (point : Int) (length fuel : Nat) :
    ∃ n exponent, searchLengths units point length fuel = .ofScaled n exponent := by
  induction fuel generalizing length with
  | zero => exact ⟨_, _, rfl⟩
  | succ fuel ih =>
    rw [searchLengths]
    split
    · exact ⟨_, _, rfl⟩
    · exact ih (length + 1)

theorem isPrintable_of_mem_shortest {units : Nat} {c : Char} (h : c ∈ (shortest units).digits) :
    IsPrintable c := by
  obtain ⟨n, exponent, hscaled⟩ := exists_searchLengths units (decimalPoint units) 1 17
  rw [shortest, hscaled] at h
  exact isPrintable_of_mem_toDigits (by decide) (by decide) (mem_digits_ofScaled h)

/-- What stands around the digits of a decimal is printable. -/
theorem isPrintable_layout {d : Decimal} (h : ∀ c ∈ d.digits, IsPrintable c) :
    ∀ c ∈ layout d, IsPrintable c := by
  have hzeros : ∀ count, ∀ c ∈ List.replicate count '0', IsPrintable c := by
    intro count c hc
    rw [List.eq_of_mem_replicate hc]
    decide
  have hsize : ∀ n, ∀ c ∈ Nat.toDigits 10 n, IsPrintable c := fun n c hc =>
    isPrintable_of_mem_toDigits (by decide) (by decide) hc
  have hpart : ∀ {cs : List Char}, cs.Sublist d.digits → ∀ c ∈ cs, IsPrintable c :=
    fun hsub c hc => h c (hsub.subset hc)
  rw [layout]
  dsimp only
  split
  · split
    · simp only [List.forall_mem_cons, List.forall_mem_append]
      exact ⟨by decide, by decide, hzeros _, h⟩
    · split
      · simp only [List.forall_mem_cons, List.forall_mem_append]
        exact ⟨⟨h, hzeros _⟩, by decide, by decide, nofun⟩
      · simp only [List.forall_mem_cons, List.forall_mem_append]
        exact ⟨hpart (List.take_sublist ..), by decide, hpart (List.drop_sublist ..)⟩
  · simp only [List.forall_mem_cons, List.forall_mem_append]
    refine ⟨?_, by decide, ?_, ?_⟩
    · split
      · next hdigits =>
        rw [hdigits, List.forall_mem_cons] at h
        simp only [List.forall_mem_cons] at h ⊢
        exact ⟨h.1, by decide, h.2⟩
      · exact h
    · split <;> decide
    · split
      · exact List.forall_mem_cons.mpr ⟨by decide, hsize _⟩
      · exact hsize _

theorem isPrintable_floatText (x : Binary64) : ∀ c ∈ (floatText x).toList, IsPrintable c := by
  cases x with
  | nan => exact List.all_iff_forall_prop.mp (by decide)
  | infinite negative => cases negative <;> exact List.all_iff_forall_prop.mp (by decide)
  | finite negative units =>
    have hbody : ∀ c ∈ (if units = 0 then ['0', '.', '0'] else layout (shortest units)),
        IsPrintable c := by
      split
      · exact List.all_iff_forall_prop.mp (by decide)
      · exact isPrintable_layout fun c => isPrintable_of_mem_shortest
    show ∀ c ∈ (toText (.finite negative units)).toList, IsPrintable c
    rw [toText, String.toList_ofList]
    split
    · exact List.forall_mem_cons.mpr ⟨by decide, hbody⟩
    · exact hbody

end Doubles

/-! ## Values -/

/-- Parts with commas between them, in brackets. -/
theorem isPrintable_enclosed {parts : List String}
    (hparts : ∀ part ∈ parts, ∀ c ∈ part.toList, IsPrintable c) {opening closing : String}
    (hopening : ∀ c ∈ opening.toList, IsPrintable c)
    (hclosing : ∀ c ∈ closing.toList, IsPrintable c) :
    ∀ c ∈ (opening ++ ", ".intercalate parts ++ closing).toList, IsPrintable c := by
  simp only [String.toList_append, List.forall_mem_append, String.toList_intercalate]
  refine ⟨⟨hopening, fun c hc => ?_⟩, hclosing⟩
  rcases mem_intercalate hc with hc | ⟨part, hpart, hc⟩
  · exact List.all_iff_forall_prop.mp (by decide) c hc
  · obtain ⟨part, hmem, rfl⟩ := List.mem_map.mp hpart
    exact hparts part hmem c hc

mutual

/-- **A value on one line takes no other one**: its characters are printable ASCII. -/
theorem isPrintable_compact (v : Json) : ∀ c ∈ (compact v).toList, IsPrintable c := by
  cases v with
  | null =>
    show ∀ c ∈ "null".toList, IsPrintable c
    exact List.all_iff_forall_prop.mp (by decide)
  | bool b =>
    show ∀ c ∈ (if b then "true" else "false").toList, IsPrintable c
    cases b <;> exact List.all_iff_forall_prop.mp (by decide)
  | int n => exact isPrintable_intText n
  | float x => exact isPrintable_floatText x
  | str s => exact isPrintable_quote s
  | arr items =>
    exact isPrintable_enclosed (isPrintable_compactItems items)
      (List.all_iff_forall_prop.mp (by decide)) (List.all_iff_forall_prop.mp (by decide))
  | obj members =>
    exact isPrintable_enclosed (isPrintable_compactMembers members)
      (List.all_iff_forall_prop.mp (by decide)) (List.all_iff_forall_prop.mp (by decide))

theorem isPrintable_compactItems (items : List Json) :
    ∀ part ∈ compactItems items, ∀ c ∈ part.toList, IsPrintable c := by
  cases items with
  | nil => exact nofun
  | cons v items =>
    exact List.forall_mem_cons.mpr ⟨isPrintable_compact v, isPrintable_compactItems items⟩

theorem isPrintable_compactMembers (members : List (String × Json)) :
    ∀ part ∈ compactMembers members, ∀ c ∈ part.toList, IsPrintable c := by
  cases members with
  | nil => exact nofun
  | cons m members =>
    obtain ⟨name, v⟩ := m
    refine List.forall_mem_cons.mpr ⟨?_, isPrintable_compactMembers members⟩
    simp only [String.toList_append, List.forall_mem_append]
    exact ⟨⟨isPrintable_quote name, List.all_iff_forall_prop.mp (by decide)⟩, isPrintable_compact v⟩

end

mutual

/-- **A value is written on one line as a text that denotes it.** -/
theorem denotes_compact {v : Json} (h : v.EachFloat WrittenExactly) :
    Denotes v (compact v).toList := by
  cases v with
  | null => exact .null
  | bool b => exact .bool b
  | int n => exact denotes_intText n
  | float x => exact .float h.1 h.2
  | str s => exact denotes_quote s
  | arr items =>
    have hparts := denotes_compactItems h
    cases items with
    | nil =>
      have hempty : (compact (.arr [])).toList = '[' :: ([] ++ [']']) := by decide
      exact hempty ▸ .emptyArr areSpaces_nil
    | cons v items =>
      have hitems := itemsDenote_intercalate areSpaces_nil areSpaces_blank areSpaces_nil hparts
        (List.cons_ne_nil _ _)
      simpa [compact, String.toList_intercalate] using Denotes.arr hitems
  | obj members =>
    have hparts := denotes_compactMembers h
    cases members with
    | nil =>
      have hempty : (compact (.obj [])).toList = '\x7b' :: ([] ++ ['\x7d']) := by decide
      exact hempty ▸ .emptyObj areSpaces_nil
    | cons m members =>
      have hmembers := membersDenote_intercalate areSpaces_nil areSpaces_blank areSpaces_nil hparts
        (List.cons_ne_nil _ _)
      simpa [compact, String.toList_intercalate] using Denotes.obj hmembers

theorem denotes_compactItems {items : List Json} (h : EachFloatOfItems WrittenExactly items) :
    List.Forall₂ Denotes items ((compactItems items).map String.toList) := by
  cases items with
  | nil => exact .nil
  | cons v items => exact .cons (denotes_compact h.1) (denotes_compactItems h.2)

theorem denotes_compactMembers {members : List (String × Json)}
    (h : EachFloatOfMembers WrittenExactly members) :
    List.Forall₂ IsMemberPart members ((compactMembers members).map String.toList) := by
  cases members with
  | nil => exact .nil
  | cons m members =>
    obtain ⟨name, v⟩ := m
    refine .cons ⟨_, denotes_compact h.1, ?_⟩ (denotes_compactMembers h.2)
    simp

end

theorem parse_compact {v : Json} (h : v.EachFloat WrittenExactly) : parse (compact v) = some v := by
  have htext := IsText.mk areSpaces_nil (denotes_compact h) areSpaces_nil
  rw [List.nil_append, List.append_nil] at htext
  exact parse_of_isText htext

end Json
end DevMachines
