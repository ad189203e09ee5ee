import DevMachines.Proofs.Yaml.Kept
import DevMachines.Settings.Document

/-!
# The keys of a settings document

A document names each key once, although its text may write a key several times and may merge one
mapping into another.  That is not checked when a document is read; it comes from how the entries of
a map are collected, which is how a layer is put over an empty one.
-/

namespace DevMachines

open Settings (KeysDiffer)

namespace Yaml

/-! ## The value of a document -/

/-- If a value is a map, its keys differ. -/
def HasDifferingKeys (v : Value) : Prop :=
  ∀ label entries, v = .map label entries → KeysDiffer entries

/-- **The value of a document that is a map has keys that differ.** -/
theorem always_readValue (number : Nat) (text : List Char) :
    Always HasDifferingKeys (readValue number text) := by
  rintro _ hread label entries rfl
  exact (always_readValue_isWellMade number text _ hread _ .self).differ

end Yaml

/-! ## The document of a text -/

namespace Settings

/-- The text that a key is. -/
def textOfKey : Value → Option String
  | .text s => some s
  | _ => none

theorem eq_text_of_textOfKey {v : Value} {s : String} (h : textOfKey v = some s) : v = .text s := by
  cases v <;> cases h
  rfl

theorem keys_textEntries (es : List (Value × Value)) :
    keys (textEntries es) = (keys es).filterMap textOfKey := by
  induction es with
  | nil => rfl
  | cons e es ih =>
    obtain ⟨key, value⟩ := e
    rw [keys_cons, List.filterMap_cons, ← ih]
    cases key <;> rfl

/-- Keys that differ as values differ as texts. -/
theorem nodup_keys_textEntries {es : List (Value × Value)} (h : KeysDiffer es) :
    (keys (textEntries es)).Nodup := by
  rw [keys_textEntries]
  refine List.Pairwise.filterMap textOfKey (fun a b hab s hs t ht => ?_) h
  obtain rfl := eq_text_of_textOfKey hs
  obtain rfl := eq_text_of_textOfKey ht
  have hne : (s == t) = false := by rwa [← Value.eq]
  exact beq_eq_false_iff_ne.mp hne

/-- **A document names each key once.** -/
theorem nodup_keys_ofText {number : Nat} {path : Path} {chars : List Char} {document : Document}
    (h : Document.ofText number path chars = .ok document) : (keys document.entries).Nodup := by
  rw [Document.ofText] at h
  split at h
  · cases h
  · cases h
  · next value hvalue =>
    cases value with
    | null =>
      obtain rfl := Except.ok.inj h
      exact List.nodup_nil
    | map label es =>
      rw [Document.ofValue] at h
      split at h
      · obtain rfl := Except.ok.inj h
        exact nodup_keys_textEntries (Yaml.always_readValue number chars _ hvalue label es rfl)
      · split at h <;> cases h
    | _ => cases h

end Settings
end DevMachines
