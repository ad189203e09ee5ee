import DevMachines.Proofs.Session.Escapes
import DevMachines.Proofs.Session.Reloading
import DevMachines.Proofs.Settings.Equality
import DevMachines.Proofs.Yaml.Unfolding

/-!
# The values of settings that resolve

Settings that resolve have their entries from two documents (`ResolvesTo.exists_documents`).  So what
every value of a document has, and the values in it have with it, is true of all values of such settings:
`ResolvesTo.forall_values`.

In particular they are well made (`ResolvesTo.isWellMade`), and so they are equal to those settings that
have the same content (`ResolvesTo.eq_iff_sameContent`).  That is asked of one side only: whatever the
other settings are, it is the keys of these that must differ.

What is read from a document can mostly be read back from what is written of it: `ResolvesTo.readBack`.
The two documents have their objects apart, because a label names its document.
-/

namespace DevMachines

/-! ## What can be written -/

namespace Settings

/-- Can entries that have been read be written so that they are read again?  They have no pairs, which
are written with a tag that is never read, and no text that does not fit on the page. -/
structure AreWritable (entries : Entries) : Prop where
  unpaired : ∀ e ∈ entries, e.2.Everywhere Yaml.IsNoPair
  fits : Yaml.entriesFit 0 entries.values

end Settings

namespace Session

open Activity Settings
open Value (AreKeys Everywhere IsWellMade)

/-! ## Documents -/

section Documents

variable {s : Session} {given : Option Path} {settings : MergedSettings}

/-- Is a document read from a text, as the one with a number? -/
def IsRead (number : Nat) (document : Document) : Prop :=
  ∃ text value, Yaml.readValue number text = .ok value ∧ Says value document

theorem isRead_nothing (number : Nat) : IsRead number ⟨none, []⟩ := ⟨[], .null, rfl, .nothing⟩

theorem isRead_of_loadDocument {number : Nat} {path : Path} {isRequired : Bool} {s t : Session}
    {document : Document}
    (h : (loadDocument number path isRequired).perform s = (.ok (some document), t)) :
    IsRead number document := by
  rcases cases_of_result_ok (congrArg Prod.fst h) with ⟨hnone, -⟩ | ⟨read, chars, value, hsame, -,
    hvalue, hsays⟩
  · cases hnone
  · obtain rfl := Option.some.inj hsame
    exact ⟨chars, value, hvalue, hsays⟩

/-- **The entries of settings are entries of documents with numbers.** -/
theorem ResolvesTo.exists_documents (h : s.ResolvesTo given settings) :
    ∃ documents : Nat → Document, (∀ number, IsRead number (documents number)) ∧
      ∀ e ∈ settings.entries, ∃ number, e ∈ (documents number).entries := by
  have hnodup := h.nodup
  obtain ⟨directory, first, second, last, defaults, overrides, -, -, hfirst, hsecond, hmerge⟩ := h
  let documents : Nat → Document
    | 0 => defaults
    | 1 => overrides.getD ⟨none, []⟩
    | _ => ⟨none, []⟩
  refine ⟨documents, fun number => ?_, fun e he => ?_⟩
  · match number with
    | 0 => exact isRead_of_loadDocument hfirst
    | 1 =>
      cases overrides with
      | none => exact isRead_nothing 1
      | some document => exact isRead_of_loadDocument hsecond
    | number + 2 => exact isRead_nothing _
  · have hvalue := hmerge.value e.1
    have hfound : settings.get? e.1 = some e.2 := (lookup_eq_some_iff_mem hnodup).mpr he
    rw [hfound, eq_comm, Option.or_eq_some_iff] at hvalue
    rcases hvalue with hupper | ⟨-, hlower⟩
    · cases overrides with
      | none => cases hupper
      | some document =>
        exact ⟨1, (lookup_eq_some_iff_mem (nodup_keys_of_loadDocument hsecond)).mp hupper⟩
    · exact ⟨0, (lookup_eq_some_iff_mem (nodup_keys_of_loadDocument hfirst)).mp hlower⟩

end Documents

section Values

variable {s : Session} {given : Option Path} {settings : MergedSettings}

/-- **The values of settings are values of documents.** -/
theorem ResolvesTo.forall_values {P : Value → Prop}
    (hread : ∀ number text, Always P (Yaml.readValue number text))
    (hmember : ∀ label entries, P (.map label entries) → ∀ e ∈ entries, P e.2)
    (h : s.ResolvesTo given settings) : ∀ e ∈ settings.entries, P e.2 := by
  obtain ⟨documents, hdocuments, hentries⟩ := h.exists_documents
  intro e he
  obtain ⟨number, hmem⟩ := hentries e he
  obtain ⟨text, value, hvalue, hsays⟩ := hdocuments number
  have hwhole := hread number text value hvalue
  generalize documents number = document at hmem hsays
  cases hsays with
  | nothing => exact absurd hmem List.not_mem_nil
  | entries label entries => exact hmember label _ hwhole _ (List.mem_map_of_mem hmem)

/-- **The values of settings are views of objects.** -/
theorem ResolvesTo.exists_objects (h : s.ResolvesTo given settings) :
    ∃ objects, Yaml.AreObjects objects ∧ ∀ e ∈ settings.entries, Yaml.Unfolds objects [] e.2 := by
  obtain ⟨documents, hdocuments, hentries⟩ := h.exists_documents
  have hviews : ∀ number, ∃ objects : Label → Value → Prop, (∀ l o, objects l o → l.document = number) ∧
      Yaml.AreObjects objects ∧ ∀ e ∈ (documents number).entries, Yaml.Unfolds objects [] e.2 := by
    intro number
    obtain ⟨text, value, hvalue, hsays⟩ := hdocuments number
    obtain ⟨objects, hnumber, hfunctional, hcontents⟩ := Yaml.exists_unfolds hvalue
    refine ⟨objects, hnumber, hfunctional, ?_⟩
    generalize documents number = document at hsays
    cases hsays with
    | nothing => exact List.forall_mem_nil _
    | entries label entries =>
      exact fun e he => (Yaml.forall_mem_contents_map.mp hcontents _ (List.mem_map_of_mem he)).2
  choose objects hnumber hfunctional hobjects using hviews
  -- a label names the document whose objects it belongs to
  refine ⟨fun l o => objects l.document l o, fun l => hfunctional l.document l, fun e he => ?_⟩
  obtain ⟨number, hmem⟩ := hentries e he
  exact (hobjects number e hmem).mono fun l o ho => hnumber number l o ho ▸ ho

end Values

/-! ## Comparing -/

section Comparing

variable {s : Session} {given : Option Path} {settings : MergedSettings}

/-- The keys of settings are different texts. -/
theorem ResolvesTo.areKeys (h : s.ResolvesTo given settings) :
    AreKeys (settings.entries.map fun e => Value.text e.1) where
  isKey := List.forall_mem_map.mpr fun _ _ => rfl
  differ := by
    have hnodup : (keys settings.entries).Pairwise (· ≠ ·) := h.nodup
    rw [List.pairwise_map]
    refine (List.pairwise_map.mp hnodup).imp fun {e f} hne => ?_
    rw [Value.eq]
    exact beq_eq_false_iff_ne.mpr hne

/-- **Settings that resolve are well made.** -/
theorem ResolvesTo.isWellMade (h : s.ResolvesTo given settings) :
    settings.toValue.IsWellMade := by
  have hvalues : ∀ e ∈ settings.entries, e.2.IsWellMade :=
    h.forall_values Yaml.always_readValue_isWellMade fun _ _ hmade e he =>
      ((Value.everywhere_map_iff.mp hmade).2 e he).2
  have hkey : ∀ key, (Value.text key).IsWellMade := fun key =>
    (Value.everywhere_scalar_iff (v := .text key) trivial).mpr trivial
  rw [Merged.toValue_eq, Merged.toMap]
  refine Value.everywhere_map_iff.mpr ⟨?_, List.forall_mem_map.mpr fun e he => ?_⟩
  · rw [Value.HasDistinctKeys, List.map_map]
    exact h.areKeys
  · exact ⟨hkey e.1, hvalues e he⟩

/-- **Settings that resolve are equal exactly to those with the same content**, if no collection in
them contains itself. -/
theorem ResolvesTo.eq_iff_sameContent (h : s.ResolvesTo given settings)
    (hunrolled : Everywhere (fun part => ∀ label, part ≠ .again label) settings.toValue)
    (other : MergedSettings) :
    settings.eq other = true ↔ settings.toValue.SameContent other.toValue :=
  Value.eq_iff_sameContent h.isWellMade hunrolled other.toValue

end Comparing

/-! ## Reading back -/

/-- **Settings that resolve can be read back from what is written of them**, if they can be written. -/
theorem ResolvesTo.readBack {s : Session} {given : Option Path} {settings : MergedSettings}
    (h : s.ResolvesTo given settings) (hshort : settings.toValue.holdsLongInt = false)
    (hwritable : AreWritable settings.entries) : ReadBack settings.entries where
  distinct := h.nodup
  fits := hwritable.fits
  views := h.exists_objects
  restorable := by
    have hread : ∀ e ∈ settings.entries, e.2.Everywhere Yaml.IsReadScalar :=
      h.forall_values Yaml.isKept_isReadScalar.always_readValue fun _ _ hall e he =>
        ((Value.everywhere_map_iff.mp hall).2 e he).2
    have hmade := h.isWellMade
    rw [Merged.toValue_eq, Merged.toMap] at hmade hshort
    have hlong := Value.entriesHoldLongInt_eq (settings.entries.map Merged.entryValue)
    have hnone := List.any_eq_false.mp (hlong.symm.trans hshort)
    intro e he
    have hmem : Merged.entryValue e ∈ settings.entries.map Merged.entryValue := List.mem_map_of_mem he
    have hshort' := Bool.eq_false_iff.mpr (hnone _ hmem)
    rw [Bool.or_eq_false_iff] at hshort'
    exact Yaml.isRestorable_of_read (hread e he) ((Value.everywhere_map_iff.mp hmade).2 _ hmem).2
      (hwritable.unpaired e he) hshort'.2

end Session
end DevMachines
