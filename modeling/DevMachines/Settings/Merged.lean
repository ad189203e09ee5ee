import DevMachines.Settings.Document
import DevMachines.Value.Equality

/-!
# Layers of settings

`overlay` puts one layer over another: a key of the upper one wins with its whole value, keys of the
lower one keep their places, and new keys follow in the order of the upper one.

`Merged` is the result of all layers together with the documents that contributed.  It is a value:
nothing that is done to a copy of its entries changes it, and two are equal when their entries are,
whatever documents they come from.

The keys of settings documents are texts.  Nothing here depends on that, so the layers are written
for any kind of key; `SettingKey` says how a key is compared and which value it is.
-/

namespace DevMachines.Settings

/-- A kind of key: how keys are compared, and the value that a key is. -/
class SettingKey (κ : Type) extends BEq κ where
  toValue : κ → Value

instance : SettingKey String where
  toValue := .text

instance : SettingKey Value where
  beq := Value.eq
  toValue := id

section Layers

variable {κ ν : Type} [BEq κ]

/-- Sets the value of a key; a key that is there keeps its place. -/
def put (key : κ) (value : ν) : List (κ × ν) → List (κ × ν)
  | [] => [(key, value)]
  | (k, v) :: rest => if k == key then (k, value) :: rest else (k, v) :: put key value rest

/-- One layer over another. -/
def overlay (defaults overrides : List (κ × ν)) : List (κ × ν) :=
  overrides.foldl (fun merged (key, value) => put key value merged) defaults

@[simp] theorem overlay_nil (d : List (κ × ν)) : overlay d [] = d := rfl

/-- Putting a layer on top adds its entries one after another. -/
theorem overlay_cons (d : List (κ × ν)) (key : κ) (value : ν) (o : List (κ × ν)) :
    overlay d ((key, value) :: o) = overlay (put key value d) o := rfl

end Layers

/-- Setting a key finds its value. -/
theorem lookup_put_self {κ ν : Type} [BEq κ] [LawfulBEq κ] (key : κ) (value : ν)
    (d : List (κ × ν)) : (put key value d).lookup key = some value := by
  induction d with
  | nil => simp [put]
  | cons e rest ih =>
    obtain ⟨k, v⟩ := e
    by_cases h : k = key
    · simp [put, h]
    · have h' : (key == k) = false := by simpa using fun e => h e.symm
      simp [put, h, List.lookup_cons, h', ih]

/-- Why a key has no value: it is not there, or it is nothing that could be a key. -/
inductive KeyFault where
  | missing (key : Value)
  | notKey (kind : String)

/-- The wording of a fault. -/
def KeyFault.message : KeyFault → String
  | .missing key => key.display
  | .notKey kind => s!"unhashable type: '{kind}'"

/-- What cannot be done with effective settings: they do not change, and they are no keys. -/
inductive ForbiddenUse where
  | assign
  | delete
  | useAsKey
  deriving DecidableEq, Repr

/-- The wording of a refusal. -/
def ForbiddenUse.message : ForbiddenUse → String
  | .assign => "'MergedSettings' object does not support item assignment"
  | .delete => "'MergedSettings' object does not support item deletion"
  | .useAsKey => "unhashable type: 'MergedSettings'"

/-- The effective settings and the documents that they come from, in order. -/
structure Merged (κ : Type) where
  entries : List (κ × Value)
  sources : List Path
  deriving Inhabited

/-- The effective settings of documents. -/
abbrev MergedSettings := Merged String

namespace Merged

variable {κ : Type} [SettingKey κ]

/-- The value of a key. -/
def get? (s : Merged κ) (key : κ) : Option Value := s.entries.lookup key

/-- The value of a key, or why there is none. -/
def get (s : Merged Value) (key : Value) : Except KeyFault Value :=
  if !key.isKey then .error (.notKey key.kindName)
  else
    match s.get? key with
    | some v => .ok v
    | none => .error (.missing key)

/-- The entries as a value. -/
def toValue (s : Merged κ) : Value :=
  .map none (s.entries.map fun (key, value) => (SettingKey.toValue key, value))

/-- Equality of content. -/
def eq (s t : Merged κ) : Bool := s.toValue.eq t.toValue

/-- Shows the entries. -/
def display (s : Merged κ) : String := "MergedSettings(" ++ s.toValue.display ++ ")"

end Merged

end DevMachines.Settings
