import DevMachines.Profile.Declaration
import DevMachines.Proofs.Profile.Rereading
import Mathlib.Data.List.Nodup

/-!
# The names of profiles

Names are judged after they have been read, and what is read of a name has no blanks at its ends.
So two profiles whose names differ only in such blanks are refused, and in a set that is accepted
the names tell the profiles apart: looking a name up finds the profile that has it, wherever it
stands.

Main statement: `ProfileSet.names_exact`.

## What the data says

`Value.givenName` takes the name from the data itself, without reading the rest.  That is what lets
a list of data be judged before it is read.
-/

namespace DevMachines

/-! ## Names -/

/-- The name that data gives, without the blanks at its ends. -/
def Value.givenName : Value → String
  | .map _ fields =>
      match Value.lookup? (.text "name") fields with
      | some v => Text.trimmed ((readText v).toOption.getD "")
      | none => ""
  | _ => ""

/-- Is a text more than blanks, with none at its ends? -/
structure IsName (text : String) : Prop where
  trimmed : Text.trimmed text = text
  notBlank : Text.isAllBlank text = false

/-- When a name is read, and what comes out. -/
theorem readName_eq_ok_iff {v : Value} {name : String} : readName v = .ok name ↔
    ∃ s, readText v = .ok s ∧ Text.isAllBlank s = false ∧ Text.trimmed s = name := by
  rw [readName, Validated.bind_eq_ok_iff]
  refine exists_congr fun s => and_congr_right fun _ => ?_
  cases Text.isAllBlank s <;> simp [Validated.fault]

/-- What is read as a name is one. -/
theorem isName_of_readName {v : Value} {name : String} (h : readName v = .ok name) :
    IsName name := by
  obtain ⟨s, -, hblank, rfl⟩ := readName_eq_ok_iff.mp h
  refine ⟨Text.trimmed_trimmed s, ?_⟩
  rw [← Text.isEmpty_trimmed, Text.trimmed_trimmed, Text.isEmpty_trimmed, hblank]

/-- The name that is read is the one that the data gives. -/
theorem givenName_of_required {type name : String} {v : Value} {fields : List (Value × Value)}
    (hrecord : readRecord type v = .ok fields)
    (hname : required "name" readName fields = .ok name) : v.givenName = name := by
  cases v with
  | map label entries =>
    obtain rfl := Except.ok.inj hrecord
    rw [required, Validated.within_eq_ok_iff] at hname
    rw [Value.givenName]
    cases hfound : Value.lookup? (.text "name") entries with
    | none =>
      rw [hfound] at hname
      cases hname
    | some given =>
      rw [hfound] at hname
      obtain ⟨s, hs, -, rfl⟩ := readName_eq_ok_iff.mp hname
      show Text.trimmed ((readText given).toOption.getD "") = _
      rw [hs]
      rfl
  | _ => cases hrecord

theorem Step.name_of_ofValue {v : Value} {s : Step} (h : Step.ofValue v = .ok s) :
    s.name = v.givenName := by
  obtain ⟨fields, hrecord, hname, -⟩ := Step.ofValue_eq_ok_iff.mp h
  exact (givenName_of_required hrecord hname).symm

theorem Profile.name_of_ofValue {home : String} {v : Value} {p : Profile}
    (h : Profile.ofValue home v = .ok p) : p.name = v.givenName := by
  obtain ⟨fields, hrecord, hname, -⟩ := Profile.ofValue_eq_ok_iff.mp h
  exact (givenName_of_required hrecord hname).symm

theorem Profile.isName_of_ofValue {home : String} {v : Value} {p : Profile}
    (h : Profile.ofValue home v = .ok p) : IsName p.name := by
  obtain ⟨fields, -, hname, -⟩ := Profile.ofValue_eq_ok_iff.mp h
  obtain ⟨given, hgiven⟩ := exists_of_required hname
  exact isName_of_readName hgiven

/-! ## Lists of data -/

section Lists

variable {α : Type} {read : Value → Validated α}

/-- Data is read item by item, and stays in order. -/
theorem readItemsFrom_eq_ok_iff {index : Nat} {data : List Value} {xs : List α} :
    readItemsFrom read index data = .ok xs ↔ data.map read = xs.map .ok := by
  induction data generalizing index xs with
  | nil => cases xs <;> simp [readItemsFrom]
  | cons v data ih =>
    cases xs with
    | nil =>
      rw [readItemsFrom]
      cases Validated.both (.within (.item index) (read v)) (readItemsFrom read (index + 1) data)
        <;> simp [Except.map]
    | cons x xs =>
      rw [readItemsFrom_cons_eq_ok_iff, ih, List.map_cons, List.map_cons, List.cons.injEq]

/-- Data that is accepted item by item is accepted as a list. -/
theorem exists_map_eq_map_ok {data : List Value} (h : ∀ v ∈ data, ∃ x, read v = .ok x) :
    ∃ xs : List α, data.map read = xs.map .ok := by
  induction data with
  | nil => exact ⟨[], rfl⟩
  | cons v data ih =>
    rw [List.forall_mem_cons] at h
    obtain ⟨x, hx⟩ := h.1
    obtain ⟨xs, hxs⟩ := ih h.2
    exact ⟨x :: xs, by rw [List.map_cons, List.map_cons, hx, hxs]⟩

/-- What is read of each item may be taken from the data. -/
theorem map_eq_of_map_eq_map_ok {β : Type} {f : α → β} {given : Value → β}
    (hgiven : ∀ v x, read v = .ok x → f x = given v) {data : List Value} {xs : List α}
    (h : data.map read = xs.map .ok) : xs.map f = data.map given := by
  induction data generalizing xs with
  | nil =>
    obtain rfl := List.map_eq_nil_iff.mp h.symm
    rfl
  | cons v data ih =>
    cases xs with
    | nil => cases h
    | cons x xs =>
      obtain ⟨hx, hxs⟩ := List.cons.inj h
      rw [List.map_cons, List.map_cons, hgiven v x hx, ih hxs]

end Lists

/-- A field that is there is read in its place. -/
theorem optional_of_lookup {α : Type} {name : String} {standard : α} {read : Value → Validated α}
    {fields : List (Value × Value)} {v : Value}
    (h : Value.lookup? (.text name) fields = some v) :
    optional name standard read fields = .within (.field name) (read v) := by
  rw [optional, h]

/-! ## Sets of profiles -/

namespace ProfileSet

variable {s : ProfileSet} {n : String}

theorem get?_eq_some_iff (h : s.names.Nodup) {p : Profile} :
    s.get? n = some p ↔ p ∈ s.profiles ∧ p.name = n := by
  constructor
  · intro hfound
    have hname := List.find?_some hfound
    exact ⟨List.mem_of_find?_eq_some hfound, eq_of_beq hname⟩
  · rintro ⟨hmem, rfl⟩
    obtain ⟨q, hq⟩ : ∃ q, s.get? p.name = some q :=
      Option.isSome_iff_exists.mp (List.find?_isSome.mpr ⟨p, hmem, beq_self_eq_true p.name⟩)
    have hsame := List.find?_some hq
    rw [hq, List.inj_on_of_nodup_map h (List.mem_of_find?_eq_some hq) hmem
      (eq_of_beq hsame)]

theorem get?_eq_none_iff : s.get? n = none ↔ n ∉ s.names := by
  rw [get?, List.find?_eq_none, names, List.mem_map]
  constructor
  · rintro h ⟨p, hp, rfl⟩
    exact h p hp (beq_self_eq_true p.name)
  · exact fun h p hp hname => h ⟨p, hp, eq_of_beq hname⟩

theorem get_eq_ok_iff {p : Profile} : s.get n = .ok p ↔ s.get? n = some p := by
  rw [get]
  cases s.get? n <;> simp

theorem get_eq_error_iff {missing : String} :
    s.get n = .error missing ↔ missing = n ∧ s.get? n = none := by
  rw [get]
  cases s.get? n <;> simp [eq_comm]

/-- **Looking a name up finds the profile that has it**, wherever it stands. -/
theorem get?_names_getElem (h : s.names.Nodup) (i : Nat) (hi : i < s.names.length) :
    ∃ p, s.profiles[i]? = some p ∧ s.get? s.names[i] = some p := by
  have hlength : i < s.profiles.length := by rwa [names, List.length_map] at hi
  refine ⟨s.profiles[i], List.getElem?_eq_getElem hlength, ?_⟩
  refine (get?_eq_some_iff h).mpr ⟨List.getElem_mem hlength, ?_⟩
  simp [names]

/-- The names of a set tell its profiles apart, and looking them up is exact. -/
structure HasExactNames (s : ProfileSet) : Prop where
  /-- The names are those of the profiles, in order. -/
  inOrder : s.names = s.profiles.map (·.name)
  distinct : s.names.Nodup
  trimmed : ∀ n ∈ s.names, IsName n
  /-- A name that is there leads to the one profile that has it. -/
  found : ∀ n ∈ s.names, ∃ p, s.get? n = some p ∧ ∀ q, q ∈ s.profiles ∧ q.name = n ↔ q = p
  absent : ∀ n, n ∉ s.names → s.get? n = none
  /-- Asking for a profile gives the one that is found, or the name that is missing. -/
  asked : ∀ n p, s.get n = .ok p ↔ s.get? n = some p
  missing : ∀ n m, s.get n = .error m ↔ m = n ∧ s.get? n = none
  position : ∀ (i : Nat) (hi : i < s.names.length),
    ∃ p, s.profiles[i]? = some p ∧ s.get? s.names[i] = some p

theorem hasExactNames (hdistinct : s.names.Nodup) (htrimmed : ∀ n ∈ s.names, IsName n) :
    s.HasExactNames where
  inOrder := rfl
  distinct := hdistinct
  trimmed := htrimmed
  found n hn := by
    obtain ⟨p, hp, hname⟩ := List.mem_map.mp hn
    refine ⟨p, (get?_eq_some_iff hdistinct).mpr ⟨hp, hname⟩, fun q => ⟨?_, ?_⟩⟩
    · rintro ⟨hq, hsame⟩
      exact List.inj_on_of_nodup_map hdistinct hq hp (hsame.trans hname.symm)
    · rintro rfl
      exact ⟨hp, hname⟩
  absent _ := get?_eq_none_iff.mpr
  asked _ _ := get_eq_ok_iff
  missing _ _ := get_eq_error_iff
  position := get?_names_getElem hdistinct

/-- A set that is accepted has exact names. -/
theorem hasExactNames_of_ofValue {home : String} {v : Value} (h : ofValue home v = .ok s) :
    s.HasExactNames := by
  obtain ⟨fields, -, hprofiles⟩ := ofValue_eq_ok_iff.mp h
  rcases exists_of_optional hprofiles with hnone | ⟨profiles, hprofiles⟩
  · have hnames : s.names = [] := by rw [names, hnone, List.map_nil]
    refine hasExactNames ?_ ?_
    · rw [hnames]
      exact List.nodup_nil
    · rw [hnames]
      exact fun _ => (absurd · List.not_mem_nil)
  · obtain ⟨hread, hdistinct⟩ := readProfiles_eq_ok_iff.mp hprofiles
    refine hasExactNames hdistinct fun n hn => ?_
    obtain ⟨p, hp, rfl⟩ := List.mem_map.mp hn
    obtain ⟨data, hdata⟩ := exists_of_mem_readList hread p hp
    exact Profile.isName_of_ofValue hdata

/-- So has the set that is declared for a project, which is not read from data. -/
theorem hasExactNames_declaredProfiles (folders : List SharedFolder) :
    (declaredProfiles (linuxProfile folders)).HasExactNames := by
  have hnames : (declaredProfiles (linuxProfile folders)).names = ["osx", "linux"] := rfl
  refine hasExactNames ?_ ?_
  · rw [hnames]
    decide
  · rw [hnames, List.forall_mem_cons, List.forall_mem_singleton]
    exact ⟨⟨by decide +kernel, by decide +kernel⟩, by decide +kernel, by decide +kernel⟩

/-- What becomes of a list of profiles each of which is accepted: the set of them, or the one fault
that their names are not unique. -/
theorem ofValue_of_items {home : String} {label listLabel : Option Label}
    {fields : List (Value × Value)} {data : List Value} {profiles : List Profile}
    (hfield : Value.lookup? (.text "profiles") fields = some (.list listLabel data))
    (hread : data.map (Profile.ofValue home) = profiles.map .ok) :
    ofValue home (.map label fields) =
      if (data.map Value.givenName).Nodup then .ok ⟨profiles⟩
      else .error (.faults [⟨[.field "profiles"],
        .rule (.duplicateProfiles (data.map Value.givenName))⟩]) := by
  have hnames : profiles.map (·.name) = data.map Value.givenName :=
    map_eq_of_map_eq_map_ok (fun _ _ => Profile.name_of_ofValue) hread
  have hitems : readList (Profile.ofValue home) (.list listLabel data) = .ok profiles :=
    readItemsFrom_eq_ok_iff.mpr hread
  rw [ofValue, readRecord]
  show (optional "profiles" [] (readProfiles home) fields >>= _) = _
  rw [optional_of_lookup hfield, readProfiles, hitems]
  show (Validated.within _ (if (profiles.map (·.name)).Nodup then _ else _) >>= _) = _
  rw [hnames]
  split <;> rfl

/-- **The names of profiles are unique, and looking them up is exact.**  A list of profiles each of
which is accepted is accepted exactly if the names that the data gives, without the blanks at their
ends, differ from each other; then the set has the profiles and these names in order, and otherwise
the names are the one fault.  In every set that is accepted, and in the one that is declared for a
project, names are exact (`HasExactNames`). -/
theorem names_exact :
    (∀ (home : String) (label listLabel : Option Label) (fields : List (Value × Value))
        (data : List Value),
      Value.lookup? (.text "profiles") fields = some (.list listLabel data) →
      (∀ v ∈ data, ∃ p, Profile.ofValue home v = .ok p) →
      ((∃ s, ofValue home (.map label fields) = .ok s) ↔ (data.map Value.givenName).Nodup) ∧
        (∀ s, ofValue home (.map label fields) = .ok s →
          data.map (Profile.ofValue home) = s.profiles.map .ok ∧
            s.names = data.map Value.givenName) ∧
        (¬ (data.map Value.givenName).Nodup → ofValue home (.map label fields) =
          .error (.faults [⟨[.field "profiles"],
            .rule (.duplicateProfiles (data.map Value.givenName))⟩]))) ∧
    (∀ (home : String) (v : Value) (s : ProfileSet), ofValue home v = .ok s → s.HasExactNames) ∧
    ∀ folders, (declaredProfiles (linuxProfile folders)).HasExactNames := by
  refine ⟨fun home label listLabel fields data hfield haccepted => ?_,
    fun _ _ _ => hasExactNames_of_ofValue, hasExactNames_declaredProfiles⟩
  obtain ⟨profiles, hread⟩ := exists_map_eq_map_ok haccepted
  rw [ofValue_of_items hfield hread]
  by_cases hnames : (data.map Value.givenName).Nodup
  · rw [if_pos hnames]
    refine ⟨iff_of_true ⟨_, rfl⟩ hnames, fun s hs => ?_, fun h => absurd hnames h⟩
    obtain rfl := Except.ok.inj hs
    exact ⟨hread, map_eq_of_map_eq_map_ok (fun _ _ => Profile.name_of_ofValue) hread⟩
  · rw [if_neg hnames]
    refine ⟨iff_of_false nofun hnames, nofun, fun _ => rfl⟩

/-- Two profiles in plain form, the first with blanks around its name. -/
def twoProfiles : List Value := [
  .record [("name", .text " web\t"), ("box", .text "jammy64")],
  .record [("name", .text "db"), ("box", .text "jammy64")]]

theorem names_exact_twoProfiles :
    (∀ v ∈ twoProfiles, ∃ p, Profile.ofValue "/home/u" v = .ok p) ∧
      ∃ s, ofValue "/home/u" (.record [("profiles", .list none twoProfiles)]) = .ok s ∧
        s.names = ["web", "db"] ∧ s.HasExactNames := by
  have haccepted : ∀ v ∈ twoProfiles, ∃ p, Profile.ofValue "/home/u" v = .ok p := by
    rw [twoProfiles, List.forall_mem_cons, List.forall_mem_singleton]
    exact ⟨⟨{ name := "web", box := "jammy64" }, by decide +kernel⟩,
      { name := "db", box := "jammy64" }, by decide +kernel⟩
  obtain ⟨hlist, hset, -⟩ := names_exact
  obtain ⟨hiff, hread, -⟩ := hlist "/home/u" none none
    [(.text "profiles", .list none twoProfiles)] twoProfiles
    (by rw [lookup?_text_cons, if_pos rfl]) haccepted
  obtain ⟨s, hs⟩ := hiff.mpr (by decide +kernel)
  refine ⟨haccepted, s, hs, ?_, hset _ _ s hs⟩
  rw [(hread s hs).2]
  decide +kernel

/-- Names that differ in blanks at their ends only are the same name. -/
example : ofValue "/home/u" (.record [("profiles", .list none [
      .record [("name", .text "web "), ("box", .text "a")],
      .record [("name", .text " web"), ("box", .text "b")]])]) =
    .error (.faults [⟨[.field "profiles"], .rule (.duplicateProfiles ["web", "web"])⟩]) := by
  decide +kernel

end ProfileSet
end DevMachines
