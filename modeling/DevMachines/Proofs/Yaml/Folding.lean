import DevMachines.Proofs.Yaml.Cursor
import DevMachines.Yaml.Ink

/-!
# Running text on folded lines

Plain and single-quoted text is written on lines that are folded at single blanks, and in single
quotes a row of line breaks is one longer than what it means.  `Folds` says which characters stand
for which text, whatever the columns are at which the lines are folded.

Main statements: `folds_plainRun` and `folds_singleQuotedRun`.
-/

namespace DevMachines.Yaml

/-- Is this character, or the end, neither a blank nor a line feed? -/
def IsSolid (c : Char) : Prop := c ≠ ' ' ∧ c ≠ '\n'

instance : DecidablePred IsSolid := fun c => inferInstanceAs (Decidable (c ≠ ' ' ∧ c ≠ '\n'))

/-- A text and what stands for it on folded lines that are indented by `indent`.  A solid character is
spelled out; the space between solid characters is kept, except that a single blank may become a new
line, and a row of line feeds has one more. -/
inductive Folds (indent : Nat) (spell : Char → List Char) : List Char → List Char → Prop where
  | nil : Folds indent spell [] []
  | solid {c : Char} {text written : List Char} (hc : IsSolid c)
      (h : Folds indent spell text written) : Folds indent spell (c :: text) (spell c ++ written)
  | blanks (n : Nat) {text written : List Char} (hnext : IsSolid (text.headD endMark))
      (h : Folds indent spell text written) :
      Folds indent spell (List.replicate (n + 1) ' ' ++ text) (List.replicate (n + 1) ' ' ++ written)
  | fold {text written : List Char} (hsome : text ≠ []) (hnext : IsSolid (text.headD endMark))
      (h : Folds indent spell text written) :
      Folds indent spell (' ' :: text) ('\n' :: (List.replicate indent ' ' ++ written))
  | breaks (n : Nat) {text written : List Char} (hnext : IsSolid (text.headD endMark))
      (h : Folds indent spell text written) :
      Folds indent spell (List.replicate (n + 1) '\n' ++ text)
        (List.replicate (n + 2) '\n' ++ (List.replicate indent ' ' ++ written))

/-- A character of a page: a line feed, or one that takes a column. -/
def OnPage (c : Char) : Prop := c = '\n' ∨ TakesColumn c

instance : DecidablePred OnPage := fun c => inferInstanceAs (Decidable (c = '\n' ∨ TakesColumn c))

theorem onPage_of_mem_replicate {n : Nat} {c : Char} (h : c ∈ List.replicate n ' ') : OnPage c :=
  .inr (takesColumn_of_mem_replicate h)

section Folds

variable {indent : Nat} {spell : Char → List Char} {text written : List Char}

theorem Folds.length_le (hspell : ∀ c, 0 < (spell c).length) (h : Folds indent spell text written) :
    text.length ≤ written.length := by
  induction h with
  | nil => exact Nat.le_refl _
  | @solid c text written hc h ih =>
    have hlength := hspell c
    simp only [List.length_cons, List.length_append]
    omega
  | blanks n hnext h ih | fold hsome hnext h ih | breaks n hnext h ih =>
    simp only [List.length_cons, List.length_append, List.length_replicate]
    omega

theorem Folds.onPage (hspell : ∀ c ∈ text, OnPage c → ∀ d ∈ spell c, OnPage d)
    (h : Folds indent spell text written) (htext : ∀ c ∈ text, OnPage c) :
    ∀ c ∈ written, OnPage c := by
  induction h with
  | nil => exact htext
  | @solid c text written hc h ih =>
    simp only [List.forall_mem_cons, List.forall_mem_append] at hspell htext ⊢
    exact ⟨hspell.1 htext.1, ih hspell.2 htext.2⟩
  | @blanks n text written hnext h ih =>
    simp only [List.forall_mem_append] at hspell htext ⊢
    exact ⟨htext.1, ih hspell.2 htext.2⟩
  | @fold text written hsome hnext h ih =>
    simp only [List.forall_mem_cons, List.forall_mem_append] at hspell htext ⊢
    exact ⟨.inl rfl, fun c hc => onPage_of_mem_replicate hc, ih hspell.2 htext.2⟩
  | @breaks n text written hnext h ih =>
    simp only [List.forall_mem_append] at hspell htext ⊢
    exact ⟨fun c hc => .inl (List.eq_of_mem_replicate hc), fun c hc => onPage_of_mem_replicate hc,
      ih hspell.2 htext.2⟩

end Folds

/-! ## Rows of one character -/

/-- The first row of a character, with what follows it. -/
theorem exists_row (c : Char) (cs : List Char) :
    ∃ n rest, cs = List.replicate n c ++ rest ∧ (rest = [] ∨ rest.headD endMark ≠ c) := by
  induction cs with
  | nil => exact ⟨0, [], by simp⟩
  | cons d cs ih =>
    by_cases hd : d = c
    · obtain ⟨n, rest, rfl, hrest⟩ := ih
      exact ⟨n + 1, rest, by simp [hd, List.replicate_succ], hrest⟩
    · exact ⟨0, d :: cs, by simp, .inr (by simpa using hd)⟩

theorem headD_ne_of_row {c : Char} {rest : List Char} (hc : c ≠ endMark)
    (h : rest = [] ∨ rest.headD endMark ≠ c) : rest.headD endMark ≠ c := by
  rcases h with rfl | h
  · exact fun heq => hc heq.symm
  · exact h

/-- What holds of every neighbouring pair holds where two parts meet. -/
theorem hasPair_append_right {p q : Char → Bool} (cs : List Char) {ds : List Char}
    (h : hasPair p q (cs ++ ds) = false) : hasPair p q ds = false := by
  induction cs with
  | nil => exact h
  | cons c cs ih =>
    apply ih
    cases hcs : cs ++ ds with
    | nil => rfl
    | cons d rest =>
      rw [List.cons_append, hcs, hasPair, Bool.or_eq_false_iff] at h
      exact h.2

/-- What follows a row of one class is not of a class that may not follow it. -/
theorem headD_ne_of_hasPair {p q : Char → Bool} {n : Nat} {c d : Char} {rest : List Char}
    (h : hasPair p q (c :: (List.replicate n c ++ rest)) = false) (hp : p c = true)
    (hq : q d = true) (hd : d ≠ endMark) : rest.headD endMark ≠ d := by
  rw [← List.cons_append, ← List.replicate_succ, List.replicate_succ', List.append_assoc] at h
  have hmeet := hasPair_append_right _ h
  cases rest with
  | nil => exact fun heq => hd heq.symm
  | cons e rest =>
    rintro rfl
    rw [List.headD_cons] at hq
    simp [hasPair, hp, hq] at hmeet

/-! ## Plain text -/

namespace Ink

theorem plainRun_blanks (indent : Nat) (split : Bool) (column n : Nat) (rest : List Char) :
    (plainRun indent split ' ' column (List.replicate n ' ' ++ rest)).1 =
      List.replicate n ' ' ++ (plainRun indent split ' ' (column + n) rest).1 := by
  induction n generalizing column with
  | zero => simp
  | succ n ih =>
    simp [List.replicate_succ, plainRun, foldedBlank, ih, Nat.add_comm, Nat.add_left_comm]

/-- A plain text without line breaks is written folded. -/
theorem folds_plainRun (indent : Nat) (split : Bool) (before : Char) (column : Nat)
    (text : List Char) (hbreak : ∀ c ∈ text, c ≠ '\n') (hlast : text.getLast? ≠ some ' ') :
    Folds indent (fun c => [c]) text (plainRun indent split before column text).1 := by
  match text with
  | [] => exact .nil
  | c :: rest =>
    by_cases hc : c = ' '
    · obtain ⟨n, more, hrow, hmore⟩ := exists_row ' ' rest
      have hlength : more.length ≤ rest.length := by simp [hrow]
      have hsome : more ≠ [] := by
        rintro rfl
        apply hlast
        rw [hc, hrow, List.append_nil, ← List.replicate_succ]
        simp [List.getLast?_replicate]
      have hnext : IsSolid (more.headD endMark) := by
        refine ⟨headD_ne_of_row (by decide) hmore, ?_⟩
        obtain ⟨d, ds, rfl⟩ := List.exists_cons_of_ne_nil hsome
        exact hbreak d (by simp [hrow])
      have hrest (column : Nat) := folds_plainRun indent split ' ' column more
        (fun d hd => hbreak d (by simp [hrow, hd]))
        (fun h => hlast (by rw [hrow, List.getLast?_cons, List.getLast?_append, h]; rfl))
      rw [hc, hrow]
      cases n with
      | zero =>
        simp only [List.replicate_zero, List.nil_append, plainRun, beq_self_eq_true, ↓reduceIte,
          foldedBlank]
        split
        · simpa using .fold hsome hnext (hrest _)
        · simpa using .blanks 0 hnext (hrest _)
      | succ n =>
        have hkept : (plainRun indent split before column
            (' ' :: (List.replicate (n + 1) ' ' ++ more))).1 =
              ' ' :: (List.replicate (n + 1) ' ' ++
                (plainRun indent split ' ' (column + 1 + (n + 1)) more).1) := by
          rw [← plainRun_blanks, plainRun]
          simp [List.replicate_succ, foldedBlank]
        rw [hkept]
        exact .blanks (n + 1) hnext (hrest _)
    · have hsolid : IsSolid c := ⟨hc, hbreak c (by simp)⟩
      have hrest := folds_plainRun indent split c (column + 1) rest
        (fun d hd => hbreak d (by simp [hd]))
        (fun h => hlast (by rw [List.getLast?_cons, h]; rfl))
      simpa [plainRun, hc] using Folds.solid hsolid hrest
termination_by text.length
decreasing_by
  · simp only [List.length_cons]; omega
  · simp

/-! ## Single-quoted text -/

/-- How a solid character is written in single quotes. -/
def doubledQuote (c : Char) : List Char := if c == '\'' then ['\'', '\''] else [c]

theorem singleQuotedRun_blanks (indent : Nat) (split : Bool) (column n : Nat) (rest : List Char) :
    (singleQuotedRun indent split ' ' column (List.replicate n ' ' ++ rest)).1 =
      List.replicate n ' ' ++ (singleQuotedRun indent split ' ' (column + n) rest).1 := by
  induction n generalizing column with
  | zero => simp
  | succ n ih =>
    simp [List.replicate_succ, singleQuotedRun, foldedBlank, ih, Nat.add_comm, Nat.add_left_comm]

/-- After a line break the rest of a row of breaks is written as it is, and the indentation after
it. -/
theorem exists_singleQuotedRun_breaks (indent : Nat) (split : Bool) (n column : Nat)
    {rest : List Char} (hrest : rest.headD endMark ≠ '\n') :
    ∃ column', (singleQuotedRun indent split '\n' column (List.replicate (n + 1) '\n' ++ rest)).1 =
      List.replicate (n + 1) '\n' ++ (List.replicate indent ' ' ++
        (singleQuotedRun indent split '\n' column' rest).1) := by
  induction n generalizing column with
  | zero =>
    refine ⟨indent, ?_⟩
    rw [List.headD_eq_head?_getD] at hrest
    simp [singleQuotedRun, hrest]
  | succ n ih =>
    obtain ⟨column', h⟩ := ih 0
    refine ⟨column', ?_⟩
    rw [List.replicate_succ, List.cons_append, singleQuotedRun]
    simp only [List.replicate_succ, List.cons_append] at h ⊢
    simp [h]

/-- A whole row of breaks is one longer than what it means. -/
theorem exists_singleQuotedRun_row (indent : Nat) (split : Bool) (n column : Nat) {before : Char}
    {rest : List Char} (hbefore : before ≠ '\n') (hrest : rest.headD endMark ≠ '\n') :
    ∃ column', (singleQuotedRun indent split before column
        ('\n' :: (List.replicate n '\n' ++ rest))).1 =
      List.replicate (n + 2) '\n' ++ (List.replicate indent ' ' ++
        (singleQuotedRun indent split '\n' column' rest).1) := by
  cases n with
  | zero =>
    refine ⟨indent, ?_⟩
    rw [List.headD_eq_head?_getD] at hrest
    simp [singleQuotedRun, hrest, hbefore]
  | succ n =>
    obtain ⟨column', h⟩ := exists_singleQuotedRun_breaks indent split n 0 hrest
    refine ⟨column', ?_⟩
    rw [singleQuotedRun]
    simp only [List.replicate_succ, List.cons_append] at h ⊢
    simp [h, hbefore]

/-- A text that single quotes can hold is written folded in them.  The character before it is no
break if the text begins with one, and no blank if it begins with one. -/
theorem folds_singleQuotedRun (indent : Nat) (split : Bool) (before : Char) (column : Nat)
    (text : List Char) (hafter : hasPair isSpace isWrittenBreak text = false)
    (hbefore : hasPair isWrittenBreak isSpace text = false)
    (hstart : before ≠ '\n' ∨ text.headD endMark ≠ '\n') :
    Folds indent doubledQuote text (singleQuotedRun indent split before column text).1 := by
  match text with
  | [] => exact .nil
  | c :: rest =>
    by_cases hblank : c = ' '
    · obtain ⟨n, more, hrow, hmore⟩ := exists_row ' ' rest
      have hlength : more.length ≤ rest.length := by simp [hrow]
      rw [hblank, hrow] at hafter hbefore ⊢
      have hnext : IsSolid (more.headD endMark) :=
        ⟨headD_ne_of_row (by decide) hmore,
          headD_ne_of_hasPair hafter (by decide) (by decide) (by decide)⟩
      have hrest (column : Nat) := folds_singleQuotedRun indent split ' ' column more
        (hasPair_append_right (' ' :: List.replicate n ' ') hafter)
        (hasPair_append_right (' ' :: List.replicate n ' ') hbefore) (.inl (by decide))
      cases n with
      | zero =>
        simp only [List.replicate_zero, List.nil_append, singleQuotedRun, beq_self_eq_true,
          ↓reduceIte, foldedBlank]
        split
        · next h =>
          have hsome : more ≠ [] := by rintro rfl; simp at h
          simpa using .fold hsome hnext (hrest _)
        · simpa using .blanks 0 hnext (hrest _)
      | succ n =>
        have hkept : (singleQuotedRun indent split before column
            (' ' :: (List.replicate (n + 1) ' ' ++ more))).1 =
              ' ' :: (List.replicate (n + 1) ' ' ++
                (singleQuotedRun indent split ' ' (column + 1 + (n + 1)) more).1) := by
          rw [← singleQuotedRun_blanks, singleQuotedRun]
          simp [List.replicate_succ, foldedBlank]
        rw [hkept]
        exact .blanks (n + 1) hnext (hrest _)
    · by_cases hbreak : c = '\n'
      · obtain ⟨n, more, hrow, hmore⟩ := exists_row '\n' rest
        have hlength : more.length ≤ rest.length := by simp [hrow]
        have hfirst : before ≠ '\n' := by
          rcases hstart with h | h
          · exact h
          · exact absurd hbreak (by simpa using h)
        rw [hbreak, hrow] at hafter hbefore ⊢
        have hnext : IsSolid (more.headD endMark) :=
          ⟨headD_ne_of_hasPair hbefore (by decide) (by decide) (by decide),
            headD_ne_of_row (by decide) hmore⟩
        have hrest (column : Nat) := folds_singleQuotedRun indent split '\n' column more
          (hasPair_append_right ('\n' :: List.replicate n '\n') hafter)
          (hasPair_append_right ('\n' :: List.replicate n '\n') hbefore) (.inr hnext.2)
        obtain ⟨column', hwritten⟩ :=
          exists_singleQuotedRun_row indent split n column hfirst hnext.2
        rw [hwritten]
        exact .breaks n hnext (hrest column')
      · have hrest (column : Nat) := folds_singleQuotedRun indent split c column rest
          (hasPair_append_right [c] hafter) (hasPair_append_right [c] hbefore)
          (.inl hbreak)
        simpa [singleQuotedRun, hblank, hbreak, doubledQuote] using
          Folds.solid ⟨hblank, hbreak⟩ (hrest _)
termination_by text.length
decreasing_by
  · simp only [List.length_cons]; omega
  · simp only [List.length_cons]; omega
  · simp

end Ink
end DevMachines.Yaml
