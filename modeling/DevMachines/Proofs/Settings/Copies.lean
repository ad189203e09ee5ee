import DevMachines.Profile.Declaration
import DevMachines.Proofs.Settings.Documents
import DevMachines.Proofs.Yaml.Renumbering

/-!
# A settings document beside its copy

Two files with the same octets are the same document, once under each number.  Put over the other, the
copy takes the place of every value and changes nothing: `overlay_of_keys_eq`.

What the workspace is does not depend on the number either (`ofSetting_inDocument`).
-/

namespace DevMachines

namespace Settings

/-! ## Layers with the same keys -/

section Layers

variable {κ ν : Type} [BEq κ] [LawfulBEq κ]

/-- A key is set in its place. -/
theorem put_append {key : κ} {before : List (κ × ν)} (h : key ∉ keys before) (value old : ν)
    (after : List (κ × ν)) :
    put key value (before ++ (key, old) :: after) = before ++ (key, value) :: after := by
  induction before with
  | nil => rw [List.nil_append, put, if_pos (beq_self_eq_true key), List.nil_append]
  | cons e before ih =>
    obtain ⟨k, v⟩ := e
    rw [keys_cons, List.mem_cons, not_or] at h
    have hk : ¬ (k == key) = true := fun hkey => h.1 (eq_of_beq hkey).symm
    rw [List.cons_append, put, if_neg hk, ih h.2, List.cons_append]

/-- **A layer with the same keys takes the place of the one below.** -/
theorem overlay_of_keys_eq {d o : List (κ × ν)} (hd : (keys d).Nodup) (h : keys o = keys d) :
    overlay d o = o := by
  suffices hall : ∀ before, (∀ key ∈ keys o, key ∉ keys before) →
      overlay (before ++ d) o = before ++ o by
    exact hall [] fun _ _ => List.not_mem_nil
  induction o generalizing d with
  | nil =>
    obtain rfl : d = [] := List.map_eq_nil_iff.mp h.symm
    exact fun before _ => rfl
  | cons e o ih =>
    obtain ⟨key, value⟩ := e
    intro before hbefore
    cases d with
    | nil => cases h
    | cons first d =>
      obtain ⟨k, old⟩ := first
      obtain ⟨rfl, hkeys⟩ := List.cons.inj h
      rw [keys_cons, List.nodup_cons] at hd
      rw [keys_cons, List.forall_mem_cons] at hbefore
      have happend : ∀ rest, before ++ (key, value) :: rest = before ++ [(key, value)] ++ rest :=
        fun rest => List.append_cons before (key, value) rest
      rw [overlay_cons, put_append hbefore.1, happend d, happend o]
      refine ih hd.2 hkeys _ fun other hother => ?_
      rw [keys, List.map_append, List.mem_append, not_or]
      refine ⟨hbefore.2 other hother, ?_⟩
      rw [List.map_singleton, List.mem_singleton]
      rintro rfl
      have hsame : keys o = keys d := hkeys
      rw [hsame] at hother
      exact hd.1 hother

end Layers

/-! ## The document of a text under another number -/

/-- Entries as parts of another document. -/
def Entries.inDocument (number : Nat) (entries : Entries) : Entries :=
  entries.map fun e => (e.1, e.2.inDocument number)

theorem keys_inDocument (number : Nat) (entries : Entries) :
    keys (entries.inDocument number) = keys entries := by
  rw [keys, keys, Entries.inDocument, List.map_map]
  rfl

theorem lookup_inDocument (number : Nat) (entries : Entries) (key : String) :
    (entries.inDocument number).lookup key = (entries.lookup key).map (·.inDocument number) := by
  induction entries with
  | nil => rfl
  | cons e entries ih =>
    obtain ⟨k, v⟩ := e
    rw [Entries.inDocument, List.map_cons, List.lookup_cons, List.lookup_cons]
    cases key == k with
    | true => rfl
    | false => exact ih

theorem badKeys_inDocument (number : Nat) (entries : List (Value × Value)) :
    badKeys (entries.map (Value.entryInDocument number)) =
      (badKeys entries).map (Value.inDocument number) := by
  induction entries with
  | nil => rfl
  | cons e entries ih =>
    obtain ⟨key, value⟩ := e
    rw [badKeys] at ih ⊢
    cases key with
    | text s => exact ih
    | _ => exact congrArg _ ih

theorem textEntries_inDocument (number : Nat) (entries : List (Value × Value)) :
    textEntries (entries.map (Value.entryInDocument number)) =
      (textEntries entries).inDocument number := by
  induction entries with
  | nil => rfl
  | cons e entries ih =>
    obtain ⟨key, value⟩ := e
    cases key with
    | text s => exact congrArg ((s, value.inDocument number) :: ·) ih
    | _ => exact ih

/-- **A text that is a document is one under every number and path**, with the same entries. -/
theorem exists_ofText_inDocument {number : Nat} {path : Path} {chars : List Char}
    {document : Document} (h : Document.ofText number path chars = .ok document) (other : Nat)
    (path' : Path) :
    ∃ copy, Document.ofText other path' chars = .ok copy ∧
      copy.entries = document.entries.inDocument other := by
  rw [Document.ofText] at h
  rw [Document.ofText, Yaml.readValue_inDocument number other]
  cases hread : Yaml.readValue number chars with
  | error fault => rw [hread] at h; cases fault <;> cases h
  | ok value =>
    rw [hread] at h
    cases value with
    | null =>
      obtain rfl := Except.ok.inj h
      exact ⟨_, rfl, rfl⟩
    | map label entries =>
      dsimp only at h
      rw [Document.ofValue] at h
      split at h
      · next hkeys =>
        obtain rfl := Except.ok.inj h
        refine ⟨⟨label.map (·.inDocument other), (textEntries entries).inDocument other⟩, ?_, rfl⟩
        rw [← textEntries_inDocument]
        show Document.ofValue path' ((Value.map label entries).inDocument other) = _
        rw [Value.inDocument, Value.entriesInDocument_eq, Document.ofValue, badKeys_inDocument,
          hkeys]
        rfl
      · split at h <;> cases h
    | _ => cases h

end Settings

/-- What the workspace is does not depend on the document that names it. -/
theorem ofSetting_inDocument (number : Nat) (setting : Option Value) :
    Workspace.ofSetting (setting.map (·.inDocument number)) = Workspace.ofSetting setting := by
  cases setting with
  | none => rfl
  | some v => cases v <;> rfl

end DevMachines
