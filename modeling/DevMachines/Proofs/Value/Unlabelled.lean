import DevMachines.Value.Equality

/-!
# Values without labels

A label tells which object a value is, and not what the value says.  `Value.unlabelled` leaves the
labels out, so two values say the same, in kind, content and order, if they are equal without their
labels.
-/

namespace DevMachines
namespace Value

mutual

/-- A value without the labels of its parts.  Where a collection stands inside itself there is nothing
but a label, so that one stays. -/
def unlabelled : Value → Value
  | .date _ d => .date none d
  | .moment _ m => .moment none m
  | .list _ items => .list none (unlabelledItems items)
  | .pair _ a b => .pair none (unlabelled a) (unlabelled b)
  | .set _ elements => .set none (unlabelledItems elements)
  | .map _ entries => .map none (unlabelledEntries entries)
  | v => v

/-- Items without labels. -/
def unlabelledItems : List Value → List Value
  | [] => []
  | v :: rest => unlabelled v :: unlabelledItems rest

/-- Entries without labels. -/
def unlabelledEntries : List (Value × Value) → List (Value × Value)
  | [] => []
  | (k, v) :: rest => (unlabelled k, unlabelled v) :: unlabelledEntries rest

end

theorem unlabelledItems_eq (vs : List Value) : unlabelledItems vs = vs.map unlabelled := by
  induction vs with
  | nil => rfl
  | cons v vs ih => rw [unlabelledItems, ih, List.map_cons]

theorem unlabelledEntries_eq (entries : List (Value × Value)) :
    unlabelledEntries entries = entries.map fun e => (e.1.unlabelled, e.2.unlabelled) := by
  induction entries with
  | nil => rfl
  | cons e entries ih => rw [unlabelledEntries, ih, List.map_cons]

/-- Is a value a scalar? -/
def IsScalar : Value → Prop
  | .list .. | .pair .. | .set .. | .map .. | .again _ => False
  | _ => True

theorem IsScalar.isKey {v : Value} (h : v.IsScalar) : v.isKey = true := by
  cases v <;> first | rfl | exact absurd h id

theorem isScalar_unlabelled {v : Value} : v.unlabelled.IsScalar ↔ v.IsScalar := by
  cases v <;> exact Iff.rfl

/-- Equality of scalars does not look at labels. -/
theorem eq_of_unlabelled {v v' w w' : Value} (hv : v.IsScalar) (hw : w.IsScalar)
    (hv' : v'.unlabelled = v.unlabelled) (hw' : w'.unlabelled = w.unlabelled) :
    eq v' w' = eq v w := by
  have hsame : ∀ {a b : Value}, a.IsScalar → b.IsScalar → eq a.unlabelled b.unlabelled = eq a b := by
    intro a b ha hb
    cases a <;> cases b <;> first | exact absurd ha id | exact absurd hb id | simp [eq, unlabelled, number?]
  have hvScalar : v'.IsScalar := by rwa [← isScalar_unlabelled, hv', isScalar_unlabelled]
  have hwScalar : w'.IsScalar := by rwa [← isScalar_unlabelled, hw', isScalar_unlabelled]
  rw [← hsame hvScalar hwScalar, hv', hw', hsame hv hw]

end Value
end DevMachines
