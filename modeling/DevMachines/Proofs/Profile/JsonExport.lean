import DevMachines.Profile.Export
import DevMachines.Proofs.Json.Layout
import DevMachines.Value.Json

/-!
# A JSON export loses nothing

The profiles of a project, exported as JSON, are a well-formed text of ASCII characters that denotes
the plain form of the profiles, member by member and item by item in order.  So the profiles can be
read back from it, and different profiles have different exports.

Main statement: `json_lossless`.

## Why nothing has to be assumed

A profile is made of texts and of truth values.  Every text can be written, because every character
of a text is one that can be spelled; and there are no doubles, which are all that could go wrong.
-/

namespace DevMachines

open Json

/-! ## The JSON form is the plain form -/

section Plain

variable (other : Value → String)

/-- Items that all have a JSON form are a list that has one. -/
theorem Value.toJsonItems_map {α : Type} {f : α → Value} {g : α → Json}
    (h : ∀ x, Value.toJson other (f x) = .ok (g x)) (xs : List α) :
    Value.toJsonItems other (xs.map f) = .ok (xs.map g) := by
  induction xs with
  | nil => rfl
  | cons x xs ih =>
    rw [List.map_cons, Value.toJsonItems, h, ih]
    rfl

theorem Step.toJson_toValue (s : Step) : Value.toJson other s.toValue = .ok s.toJson := rfl

theorem SharedFolder.toJson_toValue (f : SharedFolder) :
    Value.toJson other f.toValue = .ok f.toJson := rfl

theorem Profile.toJson_toValue (p : Profile) : Value.toJson other p.toValue = .ok p.toJson := by
  have hsteps := Value.toJsonItems_map other (Step.toJson_toValue other) p.steps
  have hfolders := Value.toJsonItems_map other (SharedFolder.toJson_toValue other) p.folders
  simp [Profile.toValue, Value.record, Value.toJson, Value.toJsonMembers, Value.memberName, hsteps,
    hfolders, Profile.toJson, Except.map, bind, Except.bind, pure, Except.pure]

theorem ProfileSet.toJson_toValue (s : ProfileSet) :
    Value.toJson other s.toValue = .ok s.toJson := by
  have hprofiles := Value.toJsonItems_map other (Profile.toJson_toValue other) s.profiles
  simp [ProfileSet.toValue, Value.record, Value.toJson, Value.toJsonMembers, Value.memberName,
    hprofiles, ProfileSet.toJson, Except.map, bind, Except.bind, pure, Except.pure]

end Plain

/-! ## There are no doubles -/

section Floats

variable {p : Binary64 → Prop}

theorem Json.eachFloatOfItems_map {α : Type} {g : α → Json} (h : ∀ x, (g x).EachFloat p)
    (xs : List α) : EachFloatOfItems p (xs.map g) := by
  induction xs with
  | nil => trivial
  | cons x xs ih => exact ⟨h x, ih⟩

theorem Step.eachFloat_toJson (s : Step) : s.toJson.EachFloat p :=
  ⟨trivial, trivial, trivial, trivial, trivial⟩

theorem SharedFolder.eachFloat_toJson (f : SharedFolder) : f.toJson.EachFloat p :=
  ⟨trivial, trivial, trivial⟩

theorem Profile.eachFloat_toJson (q : Profile) : q.toJson.EachFloat p :=
  ⟨trivial, trivial, eachFloatOfItems_map Step.eachFloat_toJson q.steps,
    eachFloatOfItems_map SharedFolder.eachFloat_toJson q.folders, trivial⟩

theorem ProfileSet.eachFloat_toJson (s : ProfileSet) : s.toJson.EachFloat p :=
  ⟨eachFloatOfItems_map Profile.eachFloat_toJson s.profiles, trivial⟩

end Floats

/-! ## The JSON form says everything -/

theorem Step.toJson_injective : Function.Injective Step.toJson := by
  rintro ⟨name, kind, path, privileged⟩ ⟨name', kind', path', privileged'⟩ h
  cases kind
  cases kind'
  simpa [Step.toJson] using h

theorem SharedFolder.toJson_injective : Function.Injective SharedFolder.toJson := by
  rintro ⟨host, guest⟩ ⟨host', guest'⟩ h
  simpa [SharedFolder.toJson] using h

theorem Profile.toJson_injective : Function.Injective Profile.toJson := by
  rintro ⟨name, box, steps, folders⟩ ⟨name', box', steps', folders'⟩ h
  simp only [Profile.toJson, Json.obj.injEq, List.cons.injEq, Prod.mk.injEq, Json.str.injEq,
    Json.arr.injEq, true_and, and_true] at h
  obtain ⟨rfl, rfl, hsteps, hfolders⟩ := h
  rw [Step.toJson_injective.list_map hsteps, SharedFolder.toJson_injective.list_map hfolders]

theorem ProfileSet.toJson_injective : Function.Injective ProfileSet.toJson := by
  rintro ⟨profiles⟩ ⟨profiles'⟩ h
  simp only [ProfileSet.toJson, Json.obj.injEq, List.cons.injEq, Prod.mk.injEq, Json.arr.injEq,
    true_and, and_true] at h
  rw [Profile.toJson_injective.list_map h]

/-! ## The export -/

namespace ProfileSet

/-- **A JSON export loses nothing**: it is a text of ASCII characters that denotes the plain form of
the profiles and nothing else, it is read as that form, and no other profiles have the same export. -/
theorem json_lossless (other : Value → String) (s : ProfileSet) :
    (∀ c ∈ s.json.toList, c.toNat < 0x80) ∧
    Value.toJson other s.toValue = .ok s.toJson ∧
    (∀ v, IsText v s.json.toList ↔ v = s.toJson) ∧
    Json.parse s.json = some s.toJson ∧
    ∀ t : ProfileSet, t.json = s.json → t = s := by
  have hread : ∀ t : ProfileSet, Json.parse t.json = some t.toJson := fun t =>
    parse_indented t.eachFloat_toJson 0
  refine ⟨isAscii_indented s.eachFloat_toJson 0, s.toJson_toValue other,
    isText_indented_iff s.eachFloat_toJson 0, hread s, fun t h => ?_⟩
  refine toJson_injective (Option.some.inj ?_)
  rw [← hread t, ← hread s, h]

end ProfileSet
end DevMachines
