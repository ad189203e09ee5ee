import DevMachines.Value.Equality

/-!
# Values with another document number

The labels of a value name the document that it was read from.  `Value.inDocument` gives all labels
the number of another document and leaves everything else as it is, so the parts of the value that
were one object still are.

What can be a key holds nothing that refers to an enclosing collection, and equality looks at nothing
else of a label; so keys are equal exactly if they are equal with other numbers (`eq_inDocument`).
-/

namespace DevMachines

/-- The same node of another document. -/
def Label.inDocument (number : Nat) (label : Label) : Label := { label with document := number }

namespace Value

mutual

/-- A value as a part of another document. -/
def inDocument (number : Nat) : Value → Value
  | .date label d => .date (label.map (·.inDocument number)) d
  | .moment label m => .moment (label.map (·.inDocument number)) m
  | .list label items => .list (label.map (·.inDocument number)) (itemsInDocument number items)
  | .pair label a b =>
      .pair (label.map (·.inDocument number)) (inDocument number a) (inDocument number b)
  | .set label elements => .set (label.map (·.inDocument number)) (itemsInDocument number elements)
  | .map label entries => .map (label.map (·.inDocument number)) (entriesInDocument number entries)
  | .again label => .again (label.inDocument number)
  | v => v

/-- Items as parts of another document. -/
def itemsInDocument (number : Nat) : List Value → List Value
  | [] => []
  | v :: rest => inDocument number v :: itemsInDocument number rest

/-- Entries as parts of another document. -/
def entriesInDocument (number : Nat) : List (Value × Value) → List (Value × Value)
  | [] => []
  | (k, v) :: rest => (inDocument number k, inDocument number v) :: entriesInDocument number rest

end

variable {number : Nat}

theorem itemsInDocument_eq (vs : List Value) :
    itemsInDocument number vs = vs.map (inDocument number) := by
  induction vs with
  | nil => rfl
  | cons v vs ih => rw [itemsInDocument, ih, List.map_cons]

/-- An entry as a part of another document. -/
def entryInDocument (number : Nat) (e : Value × Value) : Value × Value :=
  (e.1.inDocument number, e.2.inDocument number)

theorem entriesInDocument_eq (entries : List (Value × Value)) :
    entriesInDocument number entries = entries.map (entryInDocument number) := by
  induction entries with
  | nil => rfl
  | cons e entries ih => rw [entriesInDocument, ih, List.map_cons, entryInDocument]

@[simp] theorem kindName_inDocument (v : Value) : (v.inDocument number).kindName = v.kindName := by
  cases v <;> rfl

@[simp] theorem isKey_inDocument (v : Value) : (v.inDocument number).isKey = v.isKey := by
  induction v using isKey.induct with
  | case5 label a b iha ihb => rw [inDocument, isKey, iha, ihb, isKey]
  | case1 | case2 | case3 | case4 => rfl
  | case6 v _ _ _ _ hpair =>
    cases v with
    | pair label a b => exact absurd rfl (hpair label a b)
    | _ => rfl

/-- **Keys are equal exactly if they are equal in another document.** -/
theorem eq_inDocument {v w : Value} (hv : v.isKey = true) (hw : w.isKey = true) :
    eq (v.inDocument number) (w.inDocument number) = eq v w := by
  induction v using isKey.induct generalizing w with
  | case1 | case2 | case3 | case4 => exact absurd hv Bool.false_ne_true
  | case5 label a b iha ihb =>
    rw [isKey, Bool.and_eq_true] at hv
    cases w with
    | pair label' c d =>
      rw [isKey, Bool.and_eq_true] at hw
      rw [inDocument, inDocument, eq, iha hv.1 hw.1, ihb hv.2 hw.2, eq]
    | _ => simp [inDocument, eq]
  | case6 v _ _ _ _ hpair =>
    cases v with
    | pair label a b => exact absurd rfl (hpair label a b)
    | list | set | map | again => exact absurd hv Bool.false_ne_true
    | _ => cases w <;> simp [inDocument, eq, number?]

end Value
end DevMachines
