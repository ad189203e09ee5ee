/-!
# Results with a property

A reader fails on what it cannot read, so what holds of all it reads holds of its results only.
`Always` says that, and there is one lemma for each way to put readers together: a reader that ends
with another one has what the other one has, and what a first reader always has may be used for the
second.  `OnlyFails` says the same of the faults that a reader fails with.
-/

namespace DevMachines

variable {ε ζ α β : Type} {P : α → Prop} {Q : β → Prop} {x : Except ε α} {y : Except ε β}

/-- What follows a reader that succeeds reads on from its result. -/
@[simp] theorem ok_bind (a : α) (f : α → Except ε β) : (Except.ok a >>= f) = f a := rfl

@[simp] theorem map_ok (a : α) (f : α → β) : (Except.ok a : Except ε α).map f = .ok (f a) := rfl

/-- Does a result have a property, if there is one? -/
def Always (P : α → Prop) (x : Except ε α) : Prop := ∀ a, x = .ok a → P a

theorem always_ok {a : α} (h : P a) : Always P (.ok a : Except ε α) := by
  intro b hb
  obtain rfl := Except.ok.inj hb
  exact h

theorem always_error {e : ε} : Always P (.error e : Except ε α) := nofun

theorem Always.map (hy : Always Q y) {f : β → α} (h : ∀ b, Q b → P (f b)) :
    Always P (y.map f) := by
  cases y with
  | ok b => exact always_ok (h b (hy b rfl))
  | error e => exact always_error

theorem always_map {f : β → α} (h : ∀ b, P (f b)) : Always P (y.map f) :=
  Always.map (fun _ _ => trivial) fun b _ => h b

theorem Always.mapError (h : Always P x) (f : ε → ζ) : Always P (x.mapError f) := by
  cases x with
  | ok a => exact always_ok (h a rfl)
  | error e => exact always_error

theorem Always.bind (hy : Always Q y) {f : β → Except ε α} (h : ∀ b, Q b → Always P (f b)) :
    Always P (y >>= f) := by
  cases y with
  | ok b => exact h b (hy b rfl)
  | error e => exact always_error

theorem always_bind {f : β → Except ε α} (h : ∀ b, Always P (f b)) : Always P (y >>= f) :=
  Always.bind (fun _ _ => trivial) fun b _ => h b

/-- A check that there is a result gives one. -/
theorem exists_of_isOk (h : x.isOk = true) : ∃ a, x = .ok a := by
  cases x with
  | ok a => exact ⟨a, rfl⟩
  | error e => cases h

theorem eq_ok_of_toOption {a : α} (h : x.toOption = some a) : x = .ok a := by
  cases x with
  | ok b => rw [Option.some.inj h]
  | error e => cases h

/-- A result comes of a changed one. -/
theorem map_eq_ok_iff {f : α → β} {b : β} : x.map f = .ok b ↔ ∃ a, x = .ok a ∧ b = f a := by
  cases x with
  | ok a =>
    refine ⟨fun h => ⟨a, rfl, (Except.ok.inj h).symm⟩, ?_⟩
    rintro ⟨other, hother, rfl⟩
    rw [Except.ok.inj hother]
    rfl
  | error e =>
    constructor
    · intro h
      cases h
    · rintro ⟨a, h, -⟩
      cases h

/-- Readings in a row come to results exactly if each of them comes to its own. -/
theorem mapM_eq_ok_iff {xs : List β} {f : β → Except ε α} {results : List α} :
    xs.mapM f = .ok results ↔ xs.map f = results.map .ok := by
  induction xs generalizing results with
  | nil =>
    rw [List.mapM_nil]
    constructor
    · intro h
      obtain rfl := Except.ok.inj h
      rfl
    · intro h
      obtain rfl := List.map_eq_nil_iff.mp h.symm
      rfl
  | cons b xs ih =>
    rw [List.mapM_cons, List.map_cons]
    constructor
    · intro h
      cases hb : f b with
      | error e => rw [hb] at h; cases h
      | ok a =>
        rw [hb] at h
        cases hrest : xs.mapM f with
        | error e => rw [hrest] at h; cases h
        | ok rest =>
          rw [hrest] at h
          obtain rfl := Except.ok.inj h
          rw [List.map_cons, ih.mp hrest]
    · intro h
      cases results with
      | nil => cases h
      | cons a rest =>
        obtain ⟨hb, hrest⟩ := List.cons.inj h
        rw [hb, ih.mpr hrest]
        rfl

/-- What every reading has, the results of all of them have. -/
theorem always_mapM {xs : List β} {f : β → Except ε α} (h : ∀ b ∈ xs, Always P (f b)) :
    Always (fun results => ∀ a ∈ results, P a) (xs.mapM f) := by
  induction xs with
  | nil =>
    rw [List.mapM_nil]
    exact always_ok nofun
  | cons b xs ih =>
    rw [List.mapM_cons]
    have hrest := ih fun c hc => h c (List.mem_cons_of_mem b hc)
    refine (h b (List.mem_cons_self ..)).bind fun a ha => hrest.bind fun results hresults => ?_
    refine always_ok fun c hc => ?_
    rcases List.mem_cons.mp hc with rfl | hc
    · exact ha
    · exact hresults c hc

/-! ## Readers that fail -/

/-- Does a fault have a property, if there is one? -/
def OnlyFails (R : ε → Prop) (x : Except ε α) : Prop := ∀ e, x = .error e → R e

section OnlyFails

variable {R : ε → Prop} {S : ζ → Prop}

theorem onlyFails_ok {a : α} : OnlyFails R (.ok a : Except ε α) := nofun

theorem onlyFails_error {e : ε} (h : R e) : OnlyFails R (.error e : Except ε α) := by
  intro f hf
  obtain rfl := Except.error.inj hf
  exact h

theorem OnlyFails.mono {S : ε → Prop} (h : OnlyFails R x) (hRS : ∀ e, R e → S e) : OnlyFails S x :=
  fun e he => hRS e (h e he)

theorem OnlyFails.map (h : OnlyFails R x) {f : α → β} : OnlyFails R (x.map f) := by
  cases x with
  | ok a => exact onlyFails_ok
  | error e => exact onlyFails_error (h e rfl)

theorem OnlyFails.mapError (h : OnlyFails R x) {f : ε → ζ} (hf : ∀ e, R e → S (f e)) :
    OnlyFails S (x.mapError f) := by
  cases x with
  | ok a => exact onlyFails_ok
  | error e => exact onlyFails_error (hf e (h e rfl))

theorem OnlyFails.bind (h : OnlyFails R x) {f : α → Except ε β} (hf : ∀ a, OnlyFails R (f a)) :
    OnlyFails R (x >>= f) := by
  cases x with
  | ok a => exact hf a
  | error e => exact onlyFails_error (h e rfl)

theorem onlyFails_mapM {xs : List β} {f : β → Except ε α} (h : ∀ b ∈ xs, OnlyFails R (f b)) :
    OnlyFails R (xs.mapM f) := by
  induction xs with
  | nil =>
    rw [List.mapM_nil]
    exact onlyFails_ok
  | cons b xs ih =>
    rw [List.forall_mem_cons] at h
    rw [List.mapM_cons]
    exact h.1.bind fun a => (ih h.2).bind fun results => onlyFails_ok

end OnlyFails

end DevMachines
