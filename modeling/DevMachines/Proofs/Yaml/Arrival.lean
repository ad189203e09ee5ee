import DevMachines.Proofs.Yaml.Cursor
import DevMachines.Proofs.Results
import DevMachines.Yaml.Token.Lexer

/-!
# From one token to the next

Before a token is read the lexer skips the space in front of it, forgets the possible keys that have
become stale, and ends the block collections that are indented further.  `arrive` is that part of a
step.  Two states from which the lexer arrives at the same state are as good as equal, and `Leads`
compares states up to that: from the first the lexer comes to the second, token by token.

Main statements: `Leads.trans`, `run_of_leads`, and how the lexer arrives on the same line
(`arrive_sameLine`) and on the next (`arrive_newLine`).
-/

namespace DevMachines.Yaml
namespace Lexer

variable {s t u a : Lexer}

/-- The state on the next token, before that is read. -/
def arrive (s : Lexer) : Except ReadFault Lexer :=
  (s.skipToToken (s.cursor.rest.length + 1)).dropStaleKeys.map fun s => s.unwind s.cursor.column

theorem step_eq (s : Lexer) : s.step = s.arrive >>= token := by
  rw [step, arrive]
  cases dropStaleKeys _ <;> rfl

/-- From the first state the lexer comes to one that is as good as the second.  Every token on the way
has a character. -/
inductive Leads : Lexer → Lexer → Prop where
  | refl {s t : Lexer} (h : s.arrive = t.arrive) : Leads s t
  | step {s a s' t : Lexer} (harrive : s.arrive = .ok a) (htoken : a.token = .ok s')
      (hgoes : s'.done = false) (hless : s'.cursor.rest.length < a.cursor.rest.length)
      (h : Leads s' t) : Leads s t

theorem Leads.trans (h : Leads s t) (h' : Leads t u) : Leads s u := by
  induction h with
  | refl heq =>
    cases h' with
    | refl heq' => exact .refl (heq.trans heq')
    | step harrive htoken hgoes hless h' => exact .step (heq.trans harrive) htoken hgoes hless h'
  | step harrive htoken hgoes hless _ ih => exact .step harrive htoken hgoes hless (ih h')

/-- One token. -/
theorem Leads.single (harrive : s.arrive = .ok a) (htoken : a.token = .ok t)
    (hgoes : t.done = false) (hless : t.cursor.rest.length < a.cursor.rest.length) : Leads s t :=
  .step harrive htoken hgoes hless (.refl rfl)

/-! ## Runs -/

/-- The place behind blanks and a comment. -/
def pastSpace (c : Cursor) : Cursor :=
  let c := c.skipWhile (· == ' ')
  if c.here == '#' then c.skipWhile fun ch => !isBreakOrEnd ch else c

theorem length_rest_pastSpace_le (c : Cursor) : (pastSpace c).rest.length ≤ c.rest.length := by
  have hblanks := Cursor.length_rest_skipWhile_le (· == ' ') c
  simp only [pastSpace]
  split
  · exact Nat.le_trans (Cursor.length_rest_skipWhile_le _ _) hblanks
  · exact hblanks

seal Cursor.skipWhile Cursor.lineBreak in
theorem skipToToken_succ (fuel : Nat) (s : Lexer) :
    skipToToken (fuel + 1) s = match (pastSpace s.cursor).lineBreak with
      | none => { s with cursor := pastSpace s.cursor }
      | some (_, c) => skipToToken fuel { s with cursor := c, allowKey := s.allowKey || !s.inFlow } :=
  rfl

theorem length_rest_skipToToken_le (fuel : Nat) (s : Lexer) :
    (skipToToken fuel s).cursor.rest.length ≤ s.cursor.rest.length := by
  induction fuel generalizing s with
  | zero => exact Nat.le_refl _
  | succ fuel ih =>
    have hspace := length_rest_pastSpace_le s.cursor
    rw [skipToToken_succ]
    cases hbreak : (pastSpace s.cursor).lineBreak with
    | none => exact hspace
    | some result =>
      exact Nat.le_trans (ih _) (Nat.le_trans (Cursor.length_rest_lineBreak_le hbreak) hspace)

theorem cursor_unwind_go (column : Int) (indents : List Int) (s : Lexer) :
    (unwind.go column indents s).cursor = s.cursor := by
  induction indents generalizing s with
  | nil => rw [unwind.go]
  | cons outer rest ih =>
    rw [unwind.go]
    split
    · exact ih _
    · rfl

theorem cursor_unwind (column : Int) (s : Lexer) : (s.unwind column).cursor = s.cursor := by
  unfold unwind
  split
  · rfl
  · exact cursor_unwind_go column s.indents s

theorem length_rest_arrive_le (h : s.arrive = .ok a) :
    a.cursor.rest.length ≤ s.cursor.rest.length := by
  rw [arrive] at h
  cases hdrop : dropStaleKeys (s.skipToToken (s.cursor.rest.length + 1)) with
  | error f => rw [hdrop] at h; cases h
  | ok b =>
    have hcursor : b.cursor = (s.skipToToken (s.cursor.rest.length + 1)).cursor := by
      rw [dropStaleKeys] at hdrop
      split at hdrop
      · cases hdrop
      · cases hdrop; rfl
    rw [hdrop, map_ok] at h
    obtain rfl := Except.ok.inj h
    rw [cursor_unwind, hcursor]
    exact length_rest_skipToToken_le _ s

-- A step is not looked into here, which would take the elaborator long.
seal step in
theorem run_succ (fuel : Nat) (s : Lexer) :
    run (fuel + 1) s = if s.done then s.tokens
      else match s.step with
        | .ok next => run fuel next
        | .error f => (s.tokens.take s.settled).push (.fault f) :=
  rfl

/-- A run from a state that leads to the end of the text has the tokens of the end. -/
theorem run_of_leads (h : Leads s t) {last : Lexer} (harrive : t.arrive = .ok a)
    (htoken : a.token = .ok last) (hgoes : s.done = false) (hdone : last.done = true) {fuel : Nat}
    (hfuel : s.cursor.rest.length + 2 ≤ fuel) : run fuel s = last.tokens := by
  induction h generalizing fuel with
  | @refl s t heq =>
    obtain ⟨fuel, rfl⟩ : ∃ k, fuel = k + 2 := ⟨fuel - 2, by omega⟩
    have hstep : s.step = .ok last := by rw [step_eq, heq, harrive, ok_bind, htoken]
    rw [run_succ, hgoes, hstep]
    show run (fuel + 1) last = last.tokens
    rw [run_succ, hdone, if_pos rfl]
  | @step s b s' t harrive' htoken' hgoes' hless _ ih =>
    obtain ⟨fuel, rfl⟩ : ∃ k, fuel = k + 1 := ⟨fuel - 1, by omega⟩
    have hstep : s.step = .ok s' := by rw [step_eq, harrive', ok_bind, htoken']
    have hle := length_rest_arrive_le harrive'
    have hlast : run fuel s' = last.tokens := ih harrive hgoes' (by omega)
    rw [run_succ, hgoes, hstep]
    exact hlast

/-! ## Arriving -/

/-- A possible key, unless it has become stale. -/
def freshKey (c : Cursor) (key : Option PossibleKey) : Option PossibleKey :=
  if key.any (isStale c) then none else key

@[simp] theorem freshKey_none (c : Cursor) : freshKey c none = none := rfl

/-- Outside all brackets there is one place for a possible key. -/
theorem not_inFlow {key : Option PossibleKey} (h : s.keys = [key]) : s.inFlow = false := by
  simp [inFlow, h]

theorem dropStaleKeys_eq {key : Option PossibleKey} (hkeys : s.keys = [key])
    (hrequired : ∀ k ∈ key, isStale s.cursor k = true → k.required = false) :
    s.dropStaleKeys = .ok { s with keys := [freshKey s.cursor key] } := by
  have hfine : (key.any (isStale s.cursor) && key.any (·.required)) = false := by
    cases key with
    | none => rfl
    | some k =>
      cases hstale : isStale s.cursor k with
      | false => simp [hstale]
      | true => simp [hstale, hrequired k rfl hstale]
  simp [dropStaleKeys, hkeys, hfine, freshKey]

theorem unwind_of_le {column : Int} (h : s.indent ≤ column) : s.unwind column = s := by
  unfold unwind
  split
  · rfl
  · cases hindents : s.indents with
    | nil => rw [unwind.go]
    | cons outer rest => rw [unwind.go, if_neg (by omega)]

/-- A block collection that is indented further is ended. -/
theorem unwind_of_lt {column outer : Int} {rest : List Int} {key : Option PossibleKey} (hkeys : s.keys = [key])
    (hindents : s.indents = outer :: rest) (h : column < s.indent) :
    s.unwind column =
      unwind column ({ s with indent := outer, indents := rest }.push .blockEnd) := by
  have hflow := not_inFlow hkeys
  have hflow' : ({ s with indent := outer, indents := rest }.push .blockEnd).inFlow = false :=
    not_inFlow hkeys
  rw [unwind, unwind, hflow, hflow']
  simp only [Bool.false_eq_true, ↓reduceIte, hindents]
  rw [unwind.go, if_pos h]
  rfl

theorem pastSpace_blanks {c : Cursor} {n : Nat} {rest : List Char}
    (h : c.rest = List.replicate n ' ' ++ rest) (hblank : rest.headD endMark ≠ ' ')
    (hcomment : rest.headD endMark ≠ '#') : pastSpace c = c.skip n := by
  have hhere : (c.skip n).here = rest.headD endMark := by rw [Cursor.skip_blanks h]; rfl
  rw [pastSpace]
  simp only [Cursor.skipWhile_blanks h hblank, hhere, beq_iff_eq, hcomment, ↓reduceIte]

theorem skipToToken_sameLine {n fuel : Nat} {rest : List Char}
    (h : s.cursor.rest = List.replicate n ' ' ++ rest) (hrest : BeginsToken rest) :
    skipToToken (fuel + 1) s = { s with cursor := s.cursor.skip n } := by
  have hhere : (s.cursor.skip n).here = rest.headD endMark := by rw [Cursor.skip_blanks h]; rfl
  have hbreak := Cursor.lineBreak_eq_none (c := s.cursor.skip n) (hhere ▸ hrest.not_break)
  rw [skipToToken_succ, pastSpace_blanks h hrest.not_blank hrest.not_comment, hbreak]

theorem skipToToken_newLine {k fuel : Nat} {rest : List Char} {key : Option PossibleKey}
    (hkeys : s.keys = [key]) (h : s.cursor.rest = '\n' :: (List.replicate k ' ' ++ rest))
    (hrest : BeginsToken rest) :
    skipToToken (fuel + 2) s = { s with cursor := s.cursor.skip (k + 1), allowKey := true } := by
  have hspace : pastSpace s.cursor = s.cursor :=
    pastSpace_blanks (n := 0) h (by simp) (by simp)
  have hnext : s.cursor.next.rest = List.replicate k ' ' ++ rest := by
    rw [Cursor.rest_next, h]; rfl
  rw [skipToToken_succ, hspace, Cursor.lineBreak_of_newline h]
  simp only [not_inFlow hkeys, Bool.not_false, Bool.or_true]
  exact skipToToken_sameLine hnext hrest

/-- On the same line the lexer skips blanks. -/
theorem arrive_sameLine {n : Nat} {rest : List Char} {key : Option PossibleKey}
    (hkeys : s.keys = [key]) (h : s.cursor.rest = List.replicate n ' ' ++ rest)
    (hrest : BeginsToken rest)
    (hrequired : ∀ k ∈ key, isStale (s.cursor.skip n) k = true → k.required = false)
    (hindent : s.indent ≤ s.cursor.column + n) :
    s.arrive = .ok { s with
      cursor := s.cursor.skip n, keys := [freshKey (s.cursor.skip n) key] } := by
  have hdrop := dropStaleKeys_eq (s := { s with cursor := s.cursor.skip n }) hkeys hrequired
  rw [arrive, skipToToken_sameLine h hrest, hdrop, map_ok]
  refine congrArg _ (unwind_of_le ?_)
  rw [Cursor.skip_blanks h]
  exact_mod_cast hindent

/-- A possible key that need not be one, from a line that has ended by the next. -/
def IsHarmless (line : Nat) (key : Option PossibleKey) : Prop :=
  ∀ k ∈ key, k.required = false ∧ k.line ≤ line

theorem freshKey_of_isHarmless {c : Cursor} {line : Nat} {key : Option PossibleKey}
    (h : IsHarmless line key) (hline : line < c.line) : freshKey c key = none := by
  cases key with
  | none => rfl
  | some k =>
    have hle := (h k rfl).2
    have hstale : isStale c k = true := by
      have hne : k.line ≠ c.line := by omega
      rw [isStale, bne_iff_ne.mpr hne, Bool.true_or]
    rw [freshKey, Option.any_some, hstale, if_pos rfl]

/-- At the start of a line the possible keys are stale, and what is indented further has ended. -/
theorem arrive_lineStart {rest : List Char} {key : Option PossibleKey} (hkeys : s.keys = [key])
    (hharmless : ∃ line < s.cursor.line, IsHarmless line key) (h : s.cursor.rest = rest)
    (hrest : BeginsToken rest) :
    s.arrive = .ok (unwind s.cursor.column { s with keys := [none] }) := by
  obtain ⟨line, hline, hharmless⟩ := hharmless
  have hskip : s.skipToToken (s.cursor.rest.length + 1) = { s with cursor := s.cursor.skip 0 } :=
    skipToToken_sameLine (n := 0) h hrest
  have hdrop := dropStaleKeys_eq (s := s) hkeys fun k hk _ => (hharmless k hk).1
  rw [Cursor.skip_zero] at hskip
  rw [arrive, hskip, hdrop, freshKey_of_isHarmless hharmless hline, map_ok]

/-- On the next line a key may start. -/
theorem arrive_newLine {k : Nat} {rest : List Char} {key : Option PossibleKey}
    (hkeys : s.keys = [key]) (hharmless : IsHarmless s.cursor.line key)
    (h : s.cursor.rest = '\n' :: (List.replicate k ' ' ++ rest)) (hrest : BeginsToken rest) :
    s.arrive = .ok (unwind k { s with
      cursor := s.cursor.skip (k + 1), allowKey := true, keys := [none] }) := by
  have hline : (s.cursor.skip (k + 1)).line = s.cursor.line + 1 := by rw [Cursor.skip_newline h]
  have hdrop := dropStaleKeys_eq
    (s := { s with cursor := s.cursor.skip (k + 1), allowKey := true }) hkeys
    fun k hk _ => (hharmless k hk).1
  obtain ⟨fuel, hfuel⟩ : ∃ fuel, s.cursor.rest.length + 1 = fuel + 2 :=
    ⟨s.cursor.rest.length - 1, by rw [h]; simp⟩
  rw [arrive, hfuel, skipToToken_newLine hkeys h hrest, hdrop,
    freshKey_of_isHarmless hharmless (by rw [hline]; omega), map_ok]
  rw [Cursor.skip_newline h]

end Lexer
end DevMachines.Yaml
