import DevMachines.Proofs.Terminal.Displaying

/-!
# Texts that are displayed as they are

A text on the console is made of parts: some come from outside as they are, and some are escaped
first.  This file says exactly when such a text displays its parts unchanged.

* An opening bracket stays if no tag begins at it and no backslash stands before it (`StaysText`).
* In an escaped part a bracket may also begin a tag that lies in the part as a whole; the escaping is
  for those brackets.
* Backslashes before anything else stay, but a part that ends in a single one gets another one, which
  is meant to be read before a tag.

Main statement: `displays_escape_closingTag_iff`, for an escaped text in front of the tag that ends
its style.

## Why a tag that is read cannot be made up for

If something else of the text is displayed twice, a text might seem to come out as it is although a
tag in it was read.  But a tag that is read takes an opening bracket along, and nothing brings
brackets back: `Displays.count_le`.  So the brackets of markup and text are compared all the way to
the end (`SameBrackets`).
-/

namespace DevMachines
namespace Terminal

/-! ## Brackets and backslashes of a text -/

/-- Has each opening bracket a property of the character before it and of the text behind it?  The
first argument stands before the text. -/
def EachBracket (p : Option Char → List Char → Prop) : Option Char → List Char → Prop
  | _, [] => True
  | before, c :: cs => (c = '[' → p before cs) ∧ EachBracket p (some c) cs

instance EachBracket.decidable (p : Option Char → List Char → Prop)
    [∀ before cs, Decidable (p before cs)] :
    ∀ before cs, Decidable (EachBracket p before cs)
  | _, [] => .isTrue trivial
  | _, c :: cs =>
      have := EachBracket.decidable p (some c) cs
      inferInstanceAs (Decidable (_ ∧ _))

/-- The backslashes at the end of a text with some before it. -/
def slashesAfter : Nat → List Char → Nat
  | n, [] => n
  | n, c :: cs => slashesAfter (if c = '\\' then n + 1 else 0) cs

/-- Does a bracket stay, with some text behind the one that it stands in? -/
def StaysText (rest : List Char) (before : Option Char) (after : List Char) : Prop :=
  before ≠ some '\\' ∧ tagBody (after ++ rest) = none

instance (rest : List Char) (before : Option Char) (after : List Char) :
    Decidable (StaysText rest before after) :=
  inferInstanceAs (Decidable (_ ∧ _))

/-- Does a bracket of an escaped text stay? -/
def StaysEscaped (rest : List Char) (before : Option Char) (after : List Char) : Prop :=
  tagBody after = none → StaysText rest before after

instance (rest : List Char) (before : Option Char) (after : List Char) :
    Decidable (StaysEscaped rest before after) :=
  inferInstanceAs (Decidable (_ → _))

section Texts

variable {p : Option Char → List Char → Prop} {before : Option Char} {c : Char}
  {cs after : List Char} {n : Nat}

/-- A tag has no opening bracket inside. -/
theorem IsTagBody.ne_bracket (h : IsTagBody cs) : ∀ d ∈ cs, d ≠ '[' := by
  obtain ⟨d, rest, rfl, hstarts, hinside⟩ := h
  rw [List.all_eq_true] at hinside
  rw [List.forall_mem_cons]
  constructor
  · rintro rfl
    exact absurd hstarts (by decide)
  · rintro e he rfl
    exact absurd (hinside _ he) (by decide)

/-- In a part without brackets there is nothing to ask. -/
theorem eachBracket_append_iff (h : ∀ d ∈ cs, d ≠ '[') (before : Option Char) :
    EachBracket p before (cs ++ ']' :: after) ↔ EachBracket p (some ']') after := by
  induction cs generalizing before with
  | nil => exact and_iff_right fun hopen => absurd hopen (by decide)
  | cons d cs ih =>
    rw [List.forall_mem_cons] at h
    rw [List.cons_append, EachBracket, ih h.2]
    exact and_iff_right fun hopen => absurd hopen h.1

theorem slashesAfter_append_cons (hslash : c ≠ '\\') (n : Nat) (cs after : List Char) :
    slashesAfter n (cs ++ c :: after) = slashesAfter 0 after := by
  induction cs generalizing n with
  | nil => rw [List.nil_append, slashesAfter, if_neg hslash]
  | cons d cs ih => exact ih _

theorem slashesAfter_concat (n : Nat) (cs : List Char) (c : Char) :
    slashesAfter n (cs ++ [c]) = if c = '\\' then slashesAfter n cs + 1 else 0 := by
  induction cs generalizing n with
  | nil => rfl
  | cons d cs ih => exact ih _

theorem slashesAfter_replicate (n k : Nat) (cs : List Char) :
    slashesAfter n (List.replicate k '\\' ++ cs) = slashesAfter (n + k) cs := by
  induction k generalizing n with
  | zero => rfl
  | succ k ih =>
    rw [List.replicate_succ, List.cons_append, slashesAfter, if_pos rfl, ih, Nat.add_right_comm,
      Nat.add_assoc]

/-- Escaping leaves the backslashes at the end as they are. -/
theorem slashesAfter_escapeFrom {fuel : Nat} (hfuel : cs.length < fuel) (n : Nat) :
    slashesAfter 0 (escapeFrom n fuel cs) = slashesAfter n cs := by
  induction fuel generalizing cs n with
  | zero => exact absurd hfuel (Nat.not_lt_zero _)
  | succ fuel ih =>
    cases cs with
    | nil =>
      have hslashes := slashesAfter_replicate 0 n []
      rwa [List.append_nil, Nat.zero_add] at hslashes
    | cons c cs =>
      have hcs : cs.length < fuel := Nat.lt_of_succ_lt_succ hfuel
      rcases head_cases c cs with rfl | ⟨rfl, body, rest, htag⟩ | ⟨hslash, hnone⟩
      · rw [escapeFrom_backslash, ih hcs]
        rfl
      · obtain ⟨rfl, -⟩ := tagBody_eq_some_iff.mp htag
        have hrest : rest.length < fuel := by
          rw [List.length_append, List.length_cons] at hcs
          omega
        rw [escapeFrom_tag _ _ htag, ← List.cons_append, ← List.append_assoc, ← List.cons_append,
          slashesAfter_append_cons (by decide), slashesAfter_append_cons (by decide), ih hrest]
      · rw [escapeFrom_other _ _ hslash hnone, slashesAfter_append_cons hslash, ih hcs,
          slashesAfter, if_neg hslash]

/-- A text is escaped, and a single backslash at its end is doubled. -/
theorem escape_eq (cs : List Char) :
    escape cs = escapeFrom 0 (cs.length + 1) cs ++
      List.replicate (if slashesAfter 0 cs = 1 then 1 else 0) '\\' := by
  rw [← slashesAfter_escapeFrom (Nat.lt_succ_self cs.length) 0, escape.eq_def]
  dsimp only
  generalize escapeFrom 0 (cs.length + 1) cs = escaped
  have hconcat := slashesAfter_concat 0
  split
  · next rest hrest =>
    rw [List.reverse_eq_iff, List.reverse_cons, List.reverse_cons] at hrest
    rw [hrest, hconcat, hconcat, if_pos rfl, if_pos rfl, if_neg (by omega), List.replicate_zero,
      List.append_nil]
  · next rest hother hrest =>
    rw [List.reverse_eq_iff, List.reverse_cons] at hrest
    have hone : slashesAfter 0 rest.reverse = 0 := by
      cases rest with
      | nil => rfl
      | cons d rest =>
        have hd : d ≠ '\\' := by
          rintro rfl
          exact hother rest rfl
        rw [List.reverse_cons, hconcat, if_neg hd]
    rw [hrest, hconcat, if_pos rfl, hone, if_pos rfl]
    rfl
  · next hother =>
    have hnone : slashesAfter 0 escaped = 0 := by
      rcases List.eq_nil_or_concat escaped with rfl | ⟨first, d, rfl⟩
      · rfl
      · have hd : d ≠ '\\' := by
          rintro rfl
          exact hother first.reverse (by simp)
        rw [List.concat_eq_append, hconcat, if_neg hd]
    simp [hnone]

/-- A run of backslashes and the character behind it are told apart. -/
theorem replicate_append_cons_inj (hslash : c ≠ '\\') {m : Nat} :
    List.replicate n '\\' ++ c :: cs = List.replicate m '\\' ++ c :: after ↔
      n = m ∧ cs = after := by
  induction n generalizing m with
  | zero =>
    cases m with
    | zero => simp
    | succ m => simp [List.replicate_succ, hslash]
  | succ n ih =>
    cases m with
    | zero => simp [List.replicate_succ, Ne.symm hslash]
    | succ m => simp [List.replicate_succ, ih]

end Texts

/-! ## Markup that has the brackets of a text -/

/-- Has a markup as many opening brackets as the text that it is made for, and does a bracket before
it begin a tag exactly if it would before the text? -/
structure SameBrackets (markup text : List Char) : Prop where
  closes : closesFirst markup = closesFirst text
  tag : tagBody markup = none ↔ tagBody text = none
  count : markup.count '[' = text.count '['

section SameBrackets

variable {markup text : List Char}

theorem SameBrackets.refl (text : List Char) : SameBrackets text text := ⟨rfl, Iff.rfl, rfl⟩

theorem SameBrackets.cons (h : SameBrackets markup text) (c : Char) :
    SameBrackets (c :: markup) (c :: text) where
  closes := by rw [closesFirst, closesFirst, h.closes]
  tag := by rw [tagBody_eq_none_iff, tagBody_eq_none_iff, h.closes]
  count := by rw [List.count_cons, List.count_cons, h.count]

theorem SameBrackets.append (h : SameBrackets markup text) (cs : List Char) :
    SameBrackets (cs ++ markup) (cs ++ text) := by
  induction cs with
  | nil => exact h
  | cons c cs ih => exact ih.cons c

/-- Before an opening bracket the number of backslashes makes no difference. -/
theorem sameBrackets_bracket (h : markup.count '[' = text.count '[') (n m : Nat) :
    SameBrackets (List.replicate n '\\' ++ '[' :: markup)
      (List.replicate m '\\' ++ '[' :: text) := by
  have hnone : ∀ (k : Nat) (cs : List Char),
      tagBody (List.replicate k '\\' ++ '[' :: cs) = none := by
    intro k cs
    cases k with
    | zero => exact tagBody_eq_none_iff.mpr fun hstarts => absurd hstarts (by decide)
    | succ k => exact tagBody_replicate k _
  have hcount : ∀ (k : Nat) (cs : List Char),
      (List.replicate k '\\' ++ '[' :: cs).count '[' = cs.count '[' + 1 := by
    intro k cs
    rw [List.count_append, List.count_replicate, if_neg (by decide), Nat.zero_add,
      List.count_cons_self]
  refine ⟨?_, ?_, ?_⟩
  · rw [closesFirst_replicate, closesFirst_replicate]
    rfl
  · rw [hnone, hnone]
  · rw [hcount, hcount, h]

/-- A backslash before a character that begins no tag makes no difference, either. -/
theorem SameBrackets.backslash (h : SameBrackets markup text) (hnone : tagBody text = none) :
    SameBrackets ('\\' :: markup) text where
  closes := h.closes
  tag := iff_of_true (tagBody_replicate 0 markup) hnone
  count := by rw [List.count_cons_of_ne (by decide), h.count]

theorem SameBrackets.escapeFrom (h : SameBrackets markup text) {fuel : Nat} {cs : List Char}
    (hfuel : cs.length < fuel) (n : Nat) :
    SameBrackets (escapeFrom n fuel cs ++ markup) (List.replicate n '\\' ++ (cs ++ text)) := by
  induction fuel generalizing cs n with
  | zero => exact absurd hfuel (Nat.not_lt_zero _)
  | succ fuel ih =>
    cases cs with
    | nil => exact h.append _
    | cons c cs =>
      have hcs : cs.length < fuel := Nat.lt_of_succ_lt_succ hfuel
      rcases head_cases c cs with rfl | ⟨rfl, body, rest, htag⟩ | ⟨hslash, hnone⟩
      · rw [escapeFrom_backslash, List.cons_append, ← List.singleton_append, ← List.append_assoc,
          ← List.replicate_succ']
        exact ih hcs (n + 1)
      · obtain ⟨rfl, -⟩ := tagBody_eq_some_iff.mp htag
        have hrest : rest.length < fuel := by
          rw [List.length_append, List.length_cons] at hcs
          omega
        rw [escapeFrom_tag _ _ htag, List.append_assoc, List.cons_append, List.cons_append]
        refine sameBrackets_bracket ?_ _ _
        rw [List.append_assoc, List.append_assoc]
        exact (((ih hrest 0).cons ']').append body).count
      · rw [escapeFrom_other _ _ hslash hnone, List.append_assoc]
        exact ((ih hcs 0).cons c).append _

end SameBrackets

/-! ## A bracket, a character, a part -/

/-- Does a bracket before markup begin no tag, or has the markup the brackets of its text? -/
def Agree (markup text : List Char) : Prop :=
  (tagBody markup = none ∧ tagBody text = none) ∨ SameBrackets markup text

section Parts

variable {opened : List String} {n : Nat} {c : Char} {before : Option Char}
  {markup text cs : List Char}

/-- **A bracket stays exactly if no backslash stands before it and no tag begins at it.** -/
theorem displays_bracket_iff (h : Agree markup text) :
    Displays opened n ('[' :: markup) (List.replicate n '\\' ++ '[' :: text) ↔
      n = 0 ∧ tagBody text = none ∧ Displays opened 0 markup text := by
  have hslash : '[' ≠ '\\' := by decide
  cases htag : tagBody markup with
  | none =>
    have htext : tagBody text = none := by
      rcases h with h | h
      · exact h.2
      · exact h.tag.mp htag
    rw [displays_char_iff hslash fun _ => htag, if_pos rfl]
    constructor
    · rintro ⟨rest, hrest, hsame⟩
      obtain ⟨hn, rfl⟩ := (replicate_append_cons_inj hslash).mp hsame
      exact ⟨by omega, htext, hrest⟩
    · rintro ⟨rfl, -, hrest⟩
      exact ⟨text, hrest, rfl⟩
  | some found =>
    obtain ⟨body, after⟩ := found
    have hsame : SameBrackets markup text := by
      rcases h with h | h
      · rw [h.1] at htag
        cases htag
      · exact h
    have htext : tagBody text ≠ none := fun hnone => by
      rw [hsame.tag.mpr hnone] at htag
      cases htag
    refine iff_of_false (fun hshown => ?_) fun hstays => htext hstays.2.1
    rcases Nat.mod_two_eq_zero_or_one n with heven | hodd
    · obtain ⟨next, rest, -, hrest, hequal⟩ := (displays_tag_iff htag heven).mp hshown
      -- the tag has been read, so a bracket is missing
      have hcount := hrest.count_le
      have hmarkup := hsame.count
      obtain ⟨rfl, -⟩ := tagBody_eq_some_iff.mp htag
      replace hequal := congrArg (List.count '[') hequal
      simp only [List.count_append, List.count_replicate, List.count_cons] at hequal hmarkup
      simp at hequal hmarkup
      omega
    · obtain ⟨rest, -, hequal⟩ := (displays_escapedTag_iff htag hodd).mp hshown
      have hn := ((replicate_append_cons_inj hslash).mp hequal).1
      omega

theorem displays_other_iff (hslash : c ≠ '\\') (hopen : c ≠ '[') {k : Nat} :
    Displays opened n (c :: markup) (List.replicate k '\\' ++ c :: text) ↔
      n = k ∧ Displays opened 0 markup text := by
  rw [displays_char_iff hslash fun h => absurd h hopen, if_neg hopen]
  constructor
  · rintro ⟨rest, hrest, hsame⟩
    obtain ⟨rfl, rfl⟩ := (replicate_append_cons_inj hslash).mp hsame
    exact ⟨rfl, hrest⟩
  · rintro ⟨rfl, hrest⟩
    exact ⟨text, hrest, rfl⟩

/-- A text without brackets and backslashes is displayed as it is, whatever follows it. -/
theorem displays_sign_iff {sign shown : List Char} (h : ∀ d ∈ sign, d ≠ '[' ∧ d ≠ '\\') :
    Displays opened 0 (sign ++ markup) shown ↔
      ∃ rest, shown = sign ++ rest ∧ Displays opened 0 markup rest := by
  induction sign generalizing shown with
  | nil => simp
  | cons d sign ih =>
    rw [List.forall_mem_cons] at h
    rw [List.cons_append, displays_char_iff h.1.2 fun hopen => absurd hopen h.1.1, if_neg h.1.1]
    simp only [ih h.2, List.replicate_zero, List.nil_append, List.cons_append]
    constructor
    · rintro ⟨_, ⟨rest, rfl, hrest⟩, rfl⟩
      exact ⟨rest, rfl, hrest⟩
    · rintro ⟨rest, rfl, hrest⟩
      exact ⟨_, ⟨rest, rfl, hrest⟩, rfl⟩

/-- **A part that is not escaped is displayed as it is exactly if all its brackets stay.** -/
theorem displays_append_iff (h : SameBrackets markup text)
    (hbefore : before = some '\\' ↔ n ≠ 0) :
    Displays opened n (cs ++ markup) (List.replicate n '\\' ++ (cs ++ text)) ↔
      EachBracket (StaysText text) before cs ∧
        Displays opened (slashesAfter n cs) markup
          (List.replicate (slashesAfter n cs) '\\' ++ text) := by
  induction cs generalizing n before with
  | nil => exact (and_iff_right trivial).symm
  | cons c cs ih =>
    rw [List.cons_append, List.cons_append, EachBracket, slashesAfter]
    by_cases hslash : c = '\\'
    · subst hslash
      have hnext : some '\\' = some '\\' ↔ n + 1 ≠ 0 := by simp
      rw [displays_backslash_iff, ← List.singleton_append, ← List.append_assoc,
        ← List.replicate_succ', if_pos rfl, ih hnext]
      simp
    · have hnext : some c = some '\\' ↔ (0 : Nat) ≠ 0 := by simp [hslash]
      have hrest := ih hnext
      rw [List.replicate_zero, List.nil_append] at hrest
      rw [if_neg hslash]
      by_cases hopen : c = '['
      · subst hopen
        rw [displays_bracket_iff (Or.inr (h.append cs)), hrest, StaysText, ne_eq, hbefore]
        tauto
      · rw [displays_other_iff hslash hopen, hrest]
        simp [hopen]

/-- What a text ends with, if a bracket at its end begins no tag. -/
theorem tagBody_append {cs rest : List Char} (h : tagBody cs = none) (hnone : tagBody rest = none)
    (hcloses : closesFirst rest = false) : tagBody (cs ++ rest) = none := by
  have hclosing : ∀ cs : List Char, closesFirst cs = false → closesFirst (cs ++ rest) = false := by
    intro cs
    induction cs with
    | nil => exact fun _ => hcloses
    | cons c cs ih =>
      rw [List.cons_append, closesFirst, closesFirst, Bool.or_eq_false_iff, Bool.or_eq_false_iff,
        Bool.and_eq_false_iff, Bool.and_eq_false_iff]
      exact fun hc => ⟨hc.1, hc.2.imp_right ih⟩
  cases cs with
  | nil => exact hnone
  | cons c cs =>
    exact tagBody_eq_none_iff.mpr fun hstarts => hclosing cs (tagBody_eq_none_iff.mp h hstarts)

/-- Is what follows a part such that no tag reaches across, or has it the brackets of its text? -/
def Bounds (markup text : List Char) : Prop :=
  (∀ cs ∈ [markup, text], tagBody cs = none ∧ closesFirst cs = false) ∨ SameBrackets markup text

theorem Bounds.agree (h : Bounds markup text) {fuel : Nat} (hfuel : cs.length < fuel)
    (hnone : tagBody cs = none) : Agree (escapeFrom 0 fuel cs ++ markup) (cs ++ text) := by
  rcases h with h | h
  · have hmarkup := h markup (List.mem_cons_self ..)
    have htext := h text (by simp)
    exact Or.inl ⟨tagBody_escapeFrom hmarkup.1 hmarkup.2 fuel hnone,
      tagBody_append hnone htext.1 htext.2⟩
  · have hsame := h.escapeFrom hfuel 0
    exact Or.inr hsame

/-- **An escaped part is displayed as it is exactly if all its brackets stay** that begin no tag
inside of it. -/
theorem displays_escapeFrom_iff (h : Bounds markup text) {fuel : Nat} (hfuel : cs.length < fuel)
    (hbefore : before = some '\\' ↔ n ≠ 0) :
    Displays opened 0 (escapeFrom n fuel cs ++ markup) (List.replicate n '\\' ++ (cs ++ text)) ↔
      EachBracket (StaysEscaped text) before cs ∧
        Displays opened (slashesAfter n cs) markup
          (List.replicate (slashesAfter n cs) '\\' ++ text) := by
  induction fuel generalizing cs n before with
  | zero => exact absurd hfuel (Nat.not_lt_zero _)
  | succ fuel ih =>
    cases cs with
    | nil =>
      rw [Terminal.escapeFrom, displays_replicate_iff, Nat.zero_add]
      exact (and_iff_right trivial).symm
    | cons c cs =>
      have hcs : cs.length < fuel := Nat.lt_of_succ_lt_succ hfuel
      rw [EachBracket, slashesAfter]
      rcases head_cases c cs with rfl | ⟨rfl, body, after, htag⟩ | ⟨hslash, hnone⟩
      · have hnext : some '\\' = some '\\' ↔ n + 1 ≠ 0 := by simp
        rw [escapeFrom_backslash, List.cons_append, ← List.singleton_append, ← List.append_assoc,
          ← List.replicate_succ', if_pos rfl, ih hcs hnext]
        simp
      · obtain ⟨rfl, hbody⟩ := tagBody_eq_some_iff.mp htag
        have hafter : after.length < fuel := by
          rw [List.length_append, List.length_cons] at hcs
          omega
        have hkept : tagBody (body ++ ']' :: (escapeFrom 0 fuel after ++ markup)) =
            some (body, escapeFrom 0 fuel after ++ markup) :=
          tagBody_eq_some_iff.mpr ⟨rfl, hbody⟩
        have hnext : some ']' = some '\\' ↔ (0 : Nat) ≠ 0 := by decide
        have hrest := ih hafter hnext
        rw [List.replicate_zero, List.nil_append] at hrest
        rw [escapeFrom_tag _ _ htag, List.append_assoc, List.cons_append, List.append_assoc,
          List.cons_append, displays_replicate_iff, displays_escapedTag_iff hkept (by omega),
          eachBracket_append_iff hbody.ne_bracket, slashesAfter_append_cons (by decide), and_assoc,
          ← hrest, show (0 + (2 * n + 1)) / 2 = n by omega, List.cons_append, List.append_assoc,
          List.cons_append]
        constructor
        · rintro ⟨shown, hshown, hsame⟩
          obtain ⟨-, hsame⟩ := (replicate_append_cons_inj (by decide)).mp hsame
          obtain rfl := (List.cons.inj (List.append_cancel_left hsame)).2
          refine ⟨fun _ hnone => ?_, hshown⟩
          rw [htag] at hnone
          cases hnone
        · rintro ⟨-, hshown⟩
          exact ⟨_, hshown, rfl⟩
      · have hnext : some c = some '\\' ↔ (0 : Nat) ≠ 0 := by simp [hslash]
        have hrest := ih hcs hnext
        rw [List.replicate_zero, List.nil_append] at hrest
        rw [escapeFrom_other _ _ hslash hnone, List.append_assoc, List.cons_append,
          List.cons_append, displays_replicate_iff, Nat.zero_add, if_neg hslash]
        by_cases hopen : c = '['
        · subst hopen
          rw [displays_bracket_iff (h.agree hcs (hnone rfl)), hrest, StaysEscaped, StaysText,
            ne_eq, hbefore]
          have hhere := hnone rfl
          tauto
        · rw [displays_other_iff hslash hopen, hrest]
          simp [hopen]

end Parts

/-! ## An escaped text before the tag that ends its style -/

/-- Does every backslash before a bracket stand before a tag, and is there at most one at the end? -/
def IsVerbatim (cs : List Char) : Prop :=
  EachBracket (fun before after => tagBody after = none → before ≠ some '\\') none cs ∧
    slashesAfter 0 cs ≤ 1

instance : DecidablePred IsVerbatim := fun _ => inferInstanceAs (Decidable (_ ∧ _))

/-- Before the tag that ends a style, two backslashes stand for one; an odd number of them makes the
tag text. -/
theorem displays_closingTag_iff {style : String} {opened : List String} {n : Nat}
    {shown : List Char} :
    Displays (style :: opened) n closingTag shown ↔
      shown = List.replicate (n / 2) '\\' ++ if n % 2 = 0 then [] else closingTag := by
  have htag : tagBody ['/', ']'] = some (['/'], []) := by decide
  have hend : ∀ {opened : List String} {rest : List Char}, Displays opened 0 [] rest ↔ rest = [] :=
    displays_nil_iff
  rw [closingTag]
  rcases Nat.mod_two_eq_zero_or_one n with heven | hodd
  · rw [displays_tag_iff htag heven, if_pos heven]
    constructor
    · rintro ⟨next, rest, -, hrest, rfl⟩
      rw [hend.mp hrest]
    · rintro rfl
      exact ⟨opened, [], rfl, hend.mpr rfl, rfl⟩
  · rw [displays_escapedTag_iff htag hodd, if_neg (by omega)]
    simp only [hend, exists_eq_left]
    rfl

/-- **An escaped text is displayed as it is exactly if it is verbatim**, in front of the tag that ends
its style. -/
theorem displays_escape_closingTag_iff {style : String} {opened : List String} {cs : List Char} :
    Displays (style :: opened) 0 (escape cs ++ closingTag) cs ↔ IsVerbatim cs := by
  have hbounds : ∀ k, Bounds (List.replicate k '\\' ++ closingTag) [] := by
    intro k
    refine Or.inl ?_
    rw [List.forall_mem_cons, List.forall_mem_singleton, closesFirst_replicate]
    refine ⟨⟨?_, rfl⟩, rfl, rfl⟩
    cases k with
    | zero => decide
    | succ k => exact tagBody_replicate k closingTag
  have hstays : StaysEscaped [] =
      fun before after => tagBody after = none → before ≠ some '\\' := by
    ext before after
    rw [StaysEscaped, StaysText, List.append_nil]
    tauto
  have hslashes : ∀ n k, (List.replicate n '\\' =
      List.replicate (k / 2) '\\' ++ if k % 2 = 0 then [] else closingTag) ↔
        n = k / 2 ∧ k % 2 = 0 := by
    intro n k
    split
    · next heven => simp [heven]
    · next hodd =>
      refine iff_of_false (fun hsame => ?_) fun h => hodd h.2
      have hopen : '[' ∈ List.replicate n '\\' := by simp [hsame, closingTag]
      exact absurd (List.eq_of_mem_replicate hopen) (by decide)
  have hescaped := @displays_escapeFrom_iff (style :: opened) 0 none _ _ cs
    (hbounds (if slashesAfter 0 cs = 1 then 1 else 0)) (cs.length + 1)
    (Nat.lt_succ_self cs.length) (by simp)
  rw [List.replicate_zero, List.nil_append, List.append_nil, List.append_nil] at hescaped
  rw [escape_eq, List.append_assoc, hescaped, hstays, displays_replicate_iff,
    displays_closingTag_iff, hslashes, IsVerbatim]
  refine and_congr_right fun _ => ?_
  split <;> omega

theorem mem_escapeFrom {fuel n : Nat} {cs : List Char} {d : Char}
    (hd : d ∈ escapeFrom n fuel cs) : d = '\\' ∨ d ∈ cs := by
  induction fuel generalizing cs n with
  | zero => cases hd
  | succ fuel ih =>
    cases cs with
    | nil => exact Or.inl (List.eq_of_mem_replicate hd)
    | cons c cs =>
      rcases head_cases c cs with rfl | ⟨rfl, body, after, htag⟩ | ⟨hslash, hnone⟩
      · rw [escapeFrom_backslash] at hd
        exact (ih hd).imp_right (List.mem_cons_of_mem _)
      · obtain ⟨rfl, -⟩ := tagBody_eq_some_iff.mp htag
        rw [escapeFrom_tag _ _ htag] at hd
        simp only [List.mem_append, List.mem_cons] at hd ⊢
        rcases hd with hd | rfl | hd | rfl | hd
        · exact Or.inl (List.eq_of_mem_replicate hd)
        · simp
        · simp [hd]
        · simp
        · exact (ih hd).imp_right fun hd => by simp [hd]
      · rw [escapeFrom_other _ _ hslash hnone] at hd
        rcases List.mem_append.mp hd with hd | hd
        · exact Or.inl (List.eq_of_mem_replicate hd)
        · rcases List.mem_cons.mp hd with rfl | hd
          · exact Or.inr List.mem_cons_self
          · exact (ih hd).imp_right (List.mem_cons_of_mem _)

/-- Escaping brings no characters but backslashes. -/
theorem mem_escape {cs : List Char} {d : Char} (hd : d ∈ escape cs) : d = '\\' ∨ d ∈ cs := by
  rw [escape_eq] at hd
  rcases List.mem_append.mp hd with hd | hd
  · exact mem_escapeFrom hd
  · exact Or.inl (List.eq_of_mem_replicate hd)

end Terminal
end DevMachines
