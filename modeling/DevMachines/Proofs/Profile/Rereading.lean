import DevMachines.Profile.Validation
import DevMachines.Proofs.Files.Home
import DevMachines.Proofs.Files.NormalForm
import Mathlib.Data.List.DropRight

/-!
# Reading a declaration again

A declaration that has been read is written in its plain form, and the plain form is read again.
Steps always come back, and so does everything else as long as no host path begins or ends with a
blank: `ofValue_toValue_iff`.

## Where blanks come from

The blanks around a host path are removed first, and the path is brought into normal form after
that.  So a slash or a dot can shield a blank from being removed, and then disappear itself:
`/srv/work /` becomes `/srv/work ` with a blank at the end.  Reading this again removes the blank,
which names another directory, or leaves nothing at all, as with `./ /`.
-/

namespace DevMachines

/-! ## Blanks at the ends -/

namespace Text

theorem trimEnd_eq_rdropWhile (cs : List Char) : trimEnd cs = cs.rdropWhile isBlank := rfl

/-- What is left at the front is no blank, also after the blanks at the end are removed. -/
theorem trimStart_trim (cs : List Char) : trimStart (trim cs) = trim cs := by
  rw [trim, trimEnd_eq_rdropWhile]
  have hfront := List.rdropWhile_prefix isBlank (trimStart cs)
  cases hrest : (trimStart cs).rdropWhile isBlank with
  | nil => rfl
  | cons c rest =>
    refine trimStart_cons_of_not_blank ?_ rest
    rw [hrest] at hfront
    obtain ⟨more, hmore⟩ := hfront
    have hstart := trimStart_trimStart cs
    rw [← hmore, List.cons_append] at hstart
    intro hblank
    rw [trimStart_cons_of_blank hblank] at hstart
    have hshorter : (trimStart (rest ++ more)).length ≤ (rest ++ more).length :=
      (List.dropWhile_suffix isBlank).length_le
    rw [hstart, List.length_cons] at hshorter
    exact absurd hshorter (Nat.not_succ_le_self _)

/-- Blanks are removed at once. -/
theorem trim_trim (cs : List Char) : trim (trim cs) = trim cs := by
  rw [trim, trimStart_trim, trim, trimEnd_eq_rdropWhile, trimEnd_eq_rdropWhile,
    List.rdropWhile_idempotent]

theorem trimmed_trimmed (text : String) : trimmed (trimmed text) = trimmed text := by
  rw [trimmed, trimmed, String.toList_ofList, trim_trim]

/-- Removing blanks only leaves characters out. -/
theorem sublist_trimmed (text : String) : (trimmed text).toList.Sublist text.toList := by
  rw [trimmed, String.toList_ofList, trim, trimEnd_eq_rdropWhile]
  exact (List.rdropWhile_prefix isBlank _).sublist.trans (List.dropWhile_sublist isBlank)

theorem head?_trim {c : Char} (h : ¬ isBlank c = true) {cs : List Char}
    (hcs : cs.head? = some c) : (trim cs).head? = some c := by
  obtain ⟨rest, rfl⟩ := List.head?_eq_some_iff.mp hcs
  have hfront := List.rdropWhile_prefix isBlank (c :: rest)
  rw [trim, trimStart_cons_of_not_blank h, trimEnd_eq_rdropWhile]
  cases hleft : (c :: rest).rdropWhile isBlank with
  | nil => exact absurd (List.rdropWhile_eq_nil_iff.mp hleft c (List.mem_cons_self ..)) h
  | cons d left =>
    rw [hleft] at hfront
    obtain ⟨more, hmore⟩ := hfront
    rw [(List.cons.inj hmore).1]
    rfl

end Text

/-! ## Settled paths -/

namespace Path

/-- A path that does not begin with a tilde. -/
def IsSettled (p : Path) : Prop := ∀ first ∈ p.names.head?, p.root = 0 → first.startsWith "~" = false

/-- A settled path stays as it is. -/
theorem IsSettled.expandHome {p : Path} (h : p.IsSettled) (home : String) :
    p.expandHome home = .ok p := by
  obtain ⟨root, names⟩ := p
  cases root with
  | succ root => rfl
  | zero =>
    cases names with
    | nil => rfl
    | cons first rest =>
      have hname : first.startsWith "~" = false := h first rfl rfl
      have hown : ¬ first = "~" := by
        rintro rfl
        exact absurd hname (by decide +kernel)
      simp [Path.expandHome, hown, hname]

/-- A text that begins with a slash is an absolute path. -/
theorem root_ofText {text : String} (h : text.toList.head? = some '/') : (ofText text).root ≠ 0 := by
  obtain ⟨rest, hrest⟩ := List.head?_eq_some_iff.mp h
  rw [ofText_eq, hrest]
  unfold rootOf
  split
  · next hnone => simp at hnone
  · exact Nat.succ_ne_zero 1
  · exact Nat.succ_ne_zero 0

theorem head?_of_startsWith {text : String} (h : text.startsWith "/" = true) :
    text.toList.head? = some '/' := by
  rw [String.startsWith_string_iff] at h
  obtain ⟨rest, hrest⟩ := h
  rw [← hrest]
  rfl

/-- An absolute path is settled. -/
theorem IsSettled.of_root {p : Path} (h : p.root ≠ 0) : p.IsSettled := fun _ _ hroot =>
  absurd hroot h

/-- What a tilde is replaced by is absolute. -/
theorem root_ofText_home {home : String} (hhome : home.startsWith "/" = true) (rest : List String)
    {directory : String}
    (hdirectory : directory =
      if (dropFinalSlashes home).isEmpty && rest.isEmpty then "/" else dropFinalSlashes home) :
    (ofText ("/".intercalate (directory :: rest))).root ≠ 0 := by
  refine root_ofText ?_
  have hfront : (dropFinalSlashes home).toList <+: home.toList := by
    rw [dropFinalSlashes, String.toList_ofList]
    exact List.rdropWhile_prefix (· == '/') home.toList
  have hslash : dropFinalSlashes home = "" ∨ (dropFinalSlashes home).toList.head? = some '/' := by
    cases hchars : (dropFinalSlashes home).toList with
    | nil => exact Or.inl (String.toList_eq_nil_iff.mp hchars)
    | cons c cs =>
      rw [hchars] at hfront
      obtain ⟨more, hmore⟩ := hfront
      have hhead := head?_of_startsWith hhome
      rw [← hmore] at hhead
      exact Or.inr hhead
  rw [String.toList_intercalate]
  rcases hslash with hempty | hhead
  · rw [hempty] at hdirectory
    subst hdirectory
    cases rest <;> rfl
  · have hfull : (dropFinalSlashes home).isEmpty = false := by
      rw [Bool.eq_false_iff]
      intro hempty
      rw [String.isEmpty_iff.mp hempty] at hhead
      cases hhead
    rw [hfull, Bool.false_and] at hdirectory
    obtain rfl : directory = dropFinalSlashes home := hdirectory
    cases rest with
    | nil =>
      rw [List.map_singleton, List.intercalate_singleton]
      exact hhead
    | cons second rest =>
      rw [List.map_cons, List.map_cons, List.intercalate_cons_cons, List.append_assoc,
        List.head?_append, hhead]
      rfl

/-- **A path with its tilde replaced is in normal form, and is either absolute or was settled
before.** -/
theorem expandHome_eq_ok {home : String} (hhome : home.startsWith "/" = true) {p q : Path}
    (hp : p.IsNormal) (h : p.expandHome home = .ok q) :
    q.IsNormal ∧ (q.root ≠ 0 ∨ q = p ∧ p.IsSettled) := by
  obtain ⟨root, names⟩ := p
  cases root with
  | succ root =>
    obtain rfl := Except.ok.inj h
    exact ⟨hp, Or.inl (Nat.succ_ne_zero root)⟩
  | zero =>
    cases names with
    | nil =>
      obtain rfl := Except.ok.inj h
      exact ⟨hp, Or.inr ⟨rfl, fun _ hfirst => by cases hfirst⟩⟩
    | cons first rest =>
      by_cases hown : first = "~"
      · simp only [expandHome, hown, BEq.rfl, if_true] at h
        generalize hdirectory :
          (if (dropFinalSlashes home).isEmpty && rest.isEmpty then "/" else dropFinalSlashes home) =
            directory at h
        split at h
        · cases h
        · obtain rfl := Except.ok.inj h
          exact ⟨isNormal_ofText _, Or.inl (root_ofText_home hhome rest hdirectory.symm)⟩
      · cases hname : first.startsWith "~" with
        | true =>
          simp only [expandHome, beq_iff_eq, if_neg hown, if_pos hname] at h
          split at h <;> cases h
        | false =>
          have hsettled : IsSettled ⟨0, first :: rest⟩ := by
            intro _ hfirst _
            obtain rfl := Option.some.inj hfirst
            exact hname
          obtain rfl := Except.ok.inj ((hsettled.expandHome home).symm.trans h)
          exact ⟨hp, Or.inr ⟨rfl, hsettled⟩⟩

/-- The text of an absolute path begins with a slash. -/
theorem head?_toText {p : Path} (h : p.root ≠ 0) : p.toText.toList.head? = some '/' := by
  obtain ⟨count, hcount⟩ := Nat.exists_eq_succ_of_ne_zero h
  have hwritten : p.written = '/' :: (List.replicate count '/' ++
      ['/'].intercalate (p.names.map String.toList)) := by
    rw [written, hcount, List.replicate_succ, List.cons_append]
  rw [toText_eq, hwritten, if_neg (List.cons_ne_nil _ _), String.toList_ofList]
  rfl

theorem toText_ne_empty (p : Path) : p.toText ≠ "" := by
  rw [toText_eq]
  split
  · decide
  · next hsome => exact fun hempty => hsome (String.ofList_eq_empty_iff.mp hempty)

end Path

/-! ## Reading that succeeds -/

namespace Validated

variable {α β : Type}

theorem bind_eq_ok_iff {x : Validated α} {f : α → Validated β} {b : β} :
    (x >>= f) = .ok b ↔ ∃ a, x = .ok a ∧ f a = .ok b := by
  cases x with
  | ok a =>
    constructor
    · exact fun h => ⟨a, rfl, h⟩
    · rintro ⟨_, ha, h⟩
      exact Except.ok.inj ha ▸ h
  | error rejection =>
    constructor
    · intro h
      cases h
    · rintro ⟨_, h, -⟩
      cases h

theorem both_eq_ok_iff {x : Validated α} {y : Validated β} {a : α} {b : β} :
    both x y = .ok (a, b) ↔ x = .ok a ∧ y = .ok b := by
  fun_cases both x y <;> simp

theorem within_eq_ok_iff {step : DataStep} {x : Validated α} {a : α} :
    within step x = .ok a ↔ x = .ok a := by
  fun_cases within step x <;> simp

end Validated

/-! ## Reading a host path again -/

/-- When a host path is read, and what comes out. -/
theorem readHostPath_eq_ok_iff {home text : String} {v : Value} :
    readHostPath home v = .ok text ↔ ∃ s p, readText v = .ok s ∧ Text.trimmed s ≠ "" ∧
      (Path.ofText (Text.trimmed s)).expandHome home = .ok p ∧ p.toText = text := by
  rw [readHostPath, Validated.bind_eq_ok_iff]
  refine exists_congr fun s => ?_
  cases hexpand : (Path.ofText (Text.trimmed s)).expandHome home with
  | ok p => by_cases hempty : Text.trimmed s = "" <;> simp [hempty, hexpand, Validated.fault]
  | error fault =>
    cases fault <;> by_cases hempty : Text.trimmed s = "" <;>
      simp [hempty, hexpand, Validated.fault]

section HostPath

variable {home : String} (hhome : home.startsWith "/" = true)

include hhome

/-- **A host path that has been read is the text of a settled path in normal form.** -/
theorem exists_of_readHostPath {v : Value} {text : String} (h : readHostPath home v = .ok text) :
    ∃ p : Path, p.IsNormal ∧ p.IsSettled ∧ p.toText = text := by
  obtain ⟨s, p, -, -, hexpand, htext⟩ := readHostPath_eq_ok_iff.mp h
  obtain ⟨hnormal, habsolute | ⟨rfl, hsettled⟩⟩ :=
    Path.expandHome_eq_ok hhome (Path.isNormal_ofText _) hexpand
  · exact ⟨p, hnormal, .of_root habsolute, htext⟩
  · exact ⟨_, hnormal, hsettled, htext⟩

omit hhome in
/-- A text that is in normal form once its blanks are removed had no blanks to remove. -/
theorem trimmed_eq_of_toText_ofText {text : String}
    (h : (Path.ofText (Text.trimmed text)).toText = text) : Text.trimmed text = text := by
  rcases Path.sublist_toText_ofText (Text.trimmed text) with hdot | hsublist
  · rw [h] at hdot
    rw [hdot]
    decide +kernel
  · rw [h] at hsublist
    exact String.ext ((Text.sublist_trimmed text).antisymm hsublist)

/-- **A host path is read again as itself exactly if no blank stands at its ends.** -/
theorem readHostPath_text_iff {v : Value} {text : String} (h : readHostPath home v = .ok text) :
    readHostPath home (.text text) = .ok text ↔ Text.trimmed text = text := by
  obtain ⟨p, hnormal, hsettled, htext⟩ := exists_of_readHostPath hhome h
  constructor
  · intro hagain
    obtain ⟨s, q, hs, -, hexpand, hq⟩ := readHostPath_eq_ok_iff.mp hagain
    rw [readText, Except.ok.injEq] at hs
    rw [← hs] at hexpand
    have hkept : q = Path.ofText (Text.trimmed text) := by
      obtain ⟨-, habsolute | ⟨hkept, -⟩⟩ :=
        Path.expandHome_eq_ok hhome (Path.isNormal_ofText _) hexpand
      · -- The text begins with a slash, so there was no tilde and no blank in front of it.
        have hslash : (Text.trimmed text).toList.head? = some '/' := by
          rw [Text.trimmed, String.toList_ofList, ← hq]
          exact Text.head?_trim (by decide) (Path.head?_toText habsolute)
        rw [(Path.IsSettled.of_root (Path.root_ofText hslash)).expandHome] at hexpand
        exact (Except.ok.inj hexpand).symm
      · exact hkept
    exact trimmed_eq_of_toText_ofText (hkept ▸ hq)
  · intro htrimmed
    refine readHostPath_eq_ok_iff.mpr ⟨text, p, rfl, ?_, ?_, htext⟩
    · rw [htrimmed, ← htext]
      exact p.toText_ne_empty
    · rw [htrimmed, ← htext, Path.ofText_toText hnormal, hsettled.expandHome]

end HostPath

/-! ## Reading names and lists again -/

theorem readName_text (text : String) : readName (.text text) =
    if Text.isAllBlank text then .fault (.rule .blankText) else .ok (Text.trimmed text) := by
  rw [readName, readText]
  rfl

/-- A name that has been read is read again as itself. -/
theorem readName_of_readName {v : Value} {name : String} (h : readName v = .ok name) :
    readName (.text name) = .ok name := by
  obtain ⟨s, -, h⟩ := Validated.bind_eq_ok_iff.mp h
  cases hblank : Text.isAllBlank s with
  | true =>
    rw [hblank] at h
    cases h
  | false =>
    rw [hblank] at h
    obtain rfl : Text.trimmed s = name := Except.ok.inj h
    rw [readName_text, ← Text.isEmpty_trimmed, Text.trimmed_trimmed, Text.isEmpty_trimmed, hblank]
    rfl

section Lists

variable {α : Type} {read : Value → Validated α}

theorem readItemsFrom_cons_eq_ok_iff {index : Nat} {v : Value} {rest : List Value} {x : α}
    {xs : List α} : readItemsFrom read index (v :: rest) = .ok (x :: xs) ↔
      read v = .ok x ∧ readItemsFrom read (index + 1) rest = .ok xs := by
  have hboth : Validated.both (.within (.item index) (read v))
      (readItemsFrom read (index + 1) rest) = .ok (x, xs) ↔
        read v = .ok x ∧ readItemsFrom read (index + 1) rest = .ok xs := by
    rw [Validated.both_eq_ok_iff, Validated.within_eq_ok_iff]
  rw [readItemsFrom, ← hboth]
  cases Validated.both (.within (.item index) (read v)) (readItemsFrom read (index + 1) rest) with
  | ok both => simp [Except.map, Prod.ext_iff]
  | error rejection => simp [Except.map]

/-- Items are read as themselves exactly if each one is. -/
theorem readItemsFrom_map_iff {plain : α → Value} {index : Nat} {xs : List α} :
    readItemsFrom read index (xs.map plain) = .ok xs ↔ ∀ x ∈ xs, read (plain x) = .ok x := by
  induction xs generalizing index with
  | nil => simp [readItemsFrom]
  | cons x xs ih => rw [List.map_cons, readItemsFrom_cons_eq_ok_iff, ih, List.forall_mem_cons]

/-- Every item that has been read comes from one of the items. -/
theorem exists_of_mem_readItemsFrom {index : Nat} {vs : List Value} {xs : List α}
    (h : readItemsFrom read index vs = .ok xs) : ∀ x ∈ xs, ∃ v, read v = .ok x := by
  induction vs generalizing index xs with
  | nil =>
    obtain rfl := Except.ok.inj h
    exact fun _ => (absurd · List.not_mem_nil)
  | cons v vs ih =>
    cases xs with
    | nil => exact fun _ => (absurd · List.not_mem_nil)
    | cons x xs =>
      obtain ⟨hx, hxs⟩ := readItemsFrom_cons_eq_ok_iff.mp h
      exact List.forall_mem_cons.mpr ⟨⟨v, hx⟩, ih hxs⟩

theorem exists_of_mem_readList {v : Value} {xs : List α} (h : readList read v = .ok xs) :
    ∀ x ∈ xs, ∃ v, read v = .ok x := by
  unfold readList at h
  split at h
  · exact exists_of_mem_readItemsFrom h
  · exact exists_of_mem_readItemsFrom h
  · exact exists_of_mem_readItemsFrom h
  · cases h

end Lists

/-! ## Reading a declaration again -/

theorem exists_of_required {α : Type} {name : String} {read : Value → Validated α}
    {fields : List (Value × Value)} {x : α} (h : required name read fields = .ok x) :
    ∃ v, read v = .ok x := by
  rw [required, Validated.within_eq_ok_iff] at h
  split at h
  · next v _ => exact ⟨v, h⟩
  · cases h

theorem exists_of_optional {α : Type} {name : String} {standard x : α}
    {read : Value → Validated α} {fields : List (Value × Value)}
    (h : optional name standard read fields = .ok x) : x = standard ∨ ∃ v, read v = .ok x := by
  rw [optional] at h
  split at h
  · next v _ => exact Or.inr ⟨v, Validated.within_eq_ok_iff.mp h⟩
  · exact Or.inl (Except.ok.inj h).symm

/-- What the fields of a step that is read are. -/
theorem Step.ofValue_eq_ok_iff {v : Value} {s : Step} : Step.ofValue v = .ok s ↔
    ∃ fields, readRecord "ProvisionStep" v = .ok fields ∧
      required "name" readName fields = .ok s.name ∧
      optional "kind" StepKind.shell readKind fields = .ok s.kind ∧
      required "path" readName fields = .ok s.path ∧
      optional "privileged" false readTruth fields = .ok s.privileged := by
  rw [Step.ofValue, Validated.bind_eq_ok_iff]
  refine exists_congr fun fields => and_congr_right fun _ => ?_
  simp only [Validated.bind_eq_ok_iff, Prod.exists, Validated.both_eq_ok_iff, Except.ok.injEq]
  constructor
  · rintro ⟨_, _, _, _, h, rfl⟩
    exact h
  · exact fun h => ⟨_, _, _, _, h, rfl⟩

theorem SharedFolder.ofValue_eq_ok_iff {home : String} {v : Value} {f : SharedFolder} :
    SharedFolder.ofValue home v = .ok f ↔
      ∃ fields, readRecord "SharedFolder" v = .ok fields ∧
        required "host_path" (readHostPath home) fields = .ok f.hostPath ∧
        required "guest_path" readGuestPath fields = .ok f.guestPath := by
  rw [SharedFolder.ofValue, Validated.bind_eq_ok_iff]
  refine exists_congr fun fields => and_congr_right fun _ => ?_
  simp only [Validated.bind_eq_ok_iff, Prod.exists, Validated.both_eq_ok_iff, Except.ok.injEq]
  constructor
  · rintro ⟨_, _, h, rfl⟩
    exact h
  · exact fun h => ⟨_, _, h, rfl⟩

theorem Profile.ofValue_eq_ok_iff {home : String} {v : Value} {p : Profile} :
    Profile.ofValue home v = .ok p ↔
      ∃ fields, readRecord "VMProfile" v = .ok fields ∧
        required "name" readName fields = .ok p.name ∧
        required "box" readName fields = .ok p.box ∧
        optional "provisioners" [] readSteps fields = .ok p.steps ∧
        optional "synced_folders" [] (readList (SharedFolder.ofValue home)) fields =
          .ok p.folders := by
  rw [Profile.ofValue, Validated.bind_eq_ok_iff]
  refine exists_congr fun fields => and_congr_right fun _ => ?_
  simp only [Validated.bind_eq_ok_iff, Prod.exists, Validated.both_eq_ok_iff, Except.ok.injEq]
  constructor
  · rintro ⟨_, _, _, _, h, rfl⟩
    exact h
  · exact fun h => ⟨_, _, _, _, h, rfl⟩

theorem readSteps_eq_ok_iff {v : Value} {steps : List Step} : readSteps v = .ok steps ↔
    readList Step.ofValue v = .ok steps ∧ duplicates (steps.map (·.name)) = [] := by
  rw [readSteps, Validated.bind_eq_ok_iff]
  constructor
  · rintro ⟨read, hread, h⟩
    cases hnames : duplicates (read.map (·.name)) with
    | nil =>
      rw [hnames] at h
      obtain rfl := Except.ok.inj h
      exact ⟨hread, hnames⟩
    | cons name names =>
      rw [hnames] at h
      cases h
  · rintro ⟨hread, hnames⟩
    refine ⟨steps, hread, ?_⟩
    rw [hnames]

theorem readProfiles_eq_ok_iff {home : String} {v : Value} {profiles : List Profile} :
    readProfiles home v = .ok profiles ↔
      readList (Profile.ofValue home) v = .ok profiles ∧ (profiles.map (·.name)).Nodup := by
  rw [readProfiles, Validated.bind_eq_ok_iff]
  constructor
  · rintro ⟨read, hread, h⟩
    dsimp only at h
    split at h
    · next hnames =>
      obtain rfl := Except.ok.inj h
      exact ⟨hread, hnames⟩
    · cases h
  · rintro ⟨hread, hnames⟩
    exact ⟨profiles, hread, if_pos hnames⟩

theorem ProfileSet.ofValue_eq_ok_iff {home : String} {v : Value} {s : ProfileSet} :
    ProfileSet.ofValue home v = .ok s ↔
      ∃ fields, readRecord "ProfileSet" v = .ok fields ∧
        optional "profiles" [] (readProfiles home) fields = .ok s.profiles := by
  rw [ProfileSet.ofValue, Validated.bind_eq_ok_iff]
  refine exists_congr fun fields => and_congr_right fun _ => ?_
  rw [Validated.bind_eq_ok_iff]
  constructor
  · rintro ⟨_, h, hs⟩
    obtain rfl := Except.ok.inj hs
    exact h
  · exact fun h => ⟨_, h, rfl⟩

/-- A field of a record, by its name. -/
theorem lookup?_text_cons (name other : String) (v : Value) (rest : List (Value × Value)) :
    Value.lookup? (.text name) ((.text other, v) :: rest) =
      if other = name then some v else Value.lookup? (.text name) rest := by
  simp [Value.lookup?, Value.eq]

/-- A step is read as itself exactly if its name and its path are. -/
theorem Step.ofValue_toValue_iff (s : Step) : Step.ofValue s.toValue = .ok s ↔
    readName (.text s.name) = .ok s.name ∧ readName (.text s.path) = .ok s.path := by
  have hkind : readKind (.text s.kind.name) = .ok s.kind := by
    cases s.kind
    decide
  have hprivileged : readTruth (.bool s.privileged) = .ok s.privileged := rfl
  simp [Step.ofValue_eq_ok_iff, Step.toValue, Value.record, readRecord, required, optional,
    lookup?_text_cons, Validated.within_eq_ok_iff, hkind, hprivileged]

theorem SharedFolder.ofValue_toValue_iff {home : String} (f : SharedFolder) :
    SharedFolder.ofValue home f.toValue = .ok f ↔
      readHostPath home (.text f.hostPath) = .ok f.hostPath ∧
        readGuestPath (.text f.guestPath) = .ok f.guestPath := by
  simp [SharedFolder.ofValue_eq_ok_iff, SharedFolder.toValue, Value.record, readRecord, required,
    lookup?_text_cons, Validated.within_eq_ok_iff]

theorem Profile.ofValue_toValue_iff {home : String} (p : Profile) :
    Profile.ofValue home p.toValue = .ok p ↔
      readName (.text p.name) = .ok p.name ∧ readName (.text p.box) = .ok p.box ∧
        ((∀ s ∈ p.steps, Step.ofValue s.toValue = .ok s) ∧
          duplicates (p.steps.map (·.name)) = []) ∧
        ∀ f ∈ p.folders, SharedFolder.ofValue home f.toValue = .ok f := by
  simp [Profile.ofValue_eq_ok_iff, Profile.toValue, Value.record, readRecord, required, optional,
    lookup?_text_cons, Validated.within_eq_ok_iff, readSteps_eq_ok_iff, readList,
    readItemsFrom_map_iff]

theorem ProfileSet.ofValue_toValue_iff {home : String} (s : ProfileSet) :
    ProfileSet.ofValue home s.toValue = .ok s ↔
      (∀ p ∈ s.profiles, Profile.ofValue home p.toValue = .ok p) ∧
        (s.profiles.map (·.name)).Nodup := by
  simp [ProfileSet.ofValue_eq_ok_iff, ProfileSet.toValue, Value.record, readRecord, optional,
    lookup?_text_cons, Validated.within_eq_ok_iff, readProfiles_eq_ok_iff, readList,
    readItemsFrom_map_iff]

/-! ## Declarations that come back -/

/-- A folder whose host path has no blank at its ends. -/
def SharedFolder.IsTrimmed (f : SharedFolder) : Prop := Text.trimmed f.hostPath = f.hostPath

instance (f : SharedFolder) : Decidable f.IsTrimmed := inferInstanceAs (Decidable (_ = _))

/-- A step that has been read is read again as itself. -/
theorem Step.ofValue_toValue {v : Value} {s : Step} (h : Step.ofValue v = .ok s) :
    Step.ofValue s.toValue = .ok s := by
  obtain ⟨fields, -, hname, -, hpath, -⟩ := Step.ofValue_eq_ok_iff.mp h
  obtain ⟨name, hname⟩ := exists_of_required hname
  obtain ⟨path, hpath⟩ := exists_of_required hpath
  exact (Step.ofValue_toValue_iff s).mpr ⟨readName_of_readName hname, readName_of_readName hpath⟩

/-- A guest path that has been read is read again as itself. -/
theorem readGuestPath_of_readGuestPath {v : Value} {path : String}
    (h : readGuestPath v = .ok path) : readGuestPath (.text path) = .ok path := by
  obtain ⟨s, -, h⟩ := Validated.bind_eq_ok_iff.mp h
  split at h
  · next habsolute =>
    obtain rfl := Except.ok.inj h
    exact if_pos habsolute
  · cases h

section Declarations

variable {home : String} (hhome : home.startsWith "/" = true)

include hhome

/-- **A folder is read again as itself exactly if its host path has no blank at its ends.** -/
theorem SharedFolder.ofValue_toValue_iff_isTrimmed {v : Value} {f : SharedFolder}
    (h : SharedFolder.ofValue home v = .ok f) :
    SharedFolder.ofValue home f.toValue = .ok f ↔ f.IsTrimmed := by
  obtain ⟨fields, -, hhost, hguest⟩ := SharedFolder.ofValue_eq_ok_iff.mp h
  obtain ⟨host, hhost⟩ := exists_of_required hhost
  obtain ⟨guest, hguest⟩ := exists_of_required hguest
  rw [SharedFolder.ofValue_toValue_iff, readHostPath_text_iff hhome hhost,
    and_iff_left (readGuestPath_of_readGuestPath hguest), IsTrimmed]

/-- **A profile is read again as itself exactly if its host paths have no blanks at their ends.** -/
theorem Profile.ofValue_toValue_iff_isTrimmed {v : Value} {p : Profile}
    (h : Profile.ofValue home v = .ok p) :
    Profile.ofValue home p.toValue = .ok p ↔ ∀ f ∈ p.folders, f.IsTrimmed := by
  obtain ⟨fields, -, hname, hbox, hsteps, hfolders⟩ := Profile.ofValue_eq_ok_iff.mp h
  obtain ⟨name, hname⟩ := exists_of_required hname
  obtain ⟨box, hbox⟩ := exists_of_required hbox
  have hkept : (∀ s ∈ p.steps, Step.ofValue s.toValue = .ok s) ∧
      duplicates (p.steps.map (·.name)) = [] := by
    rcases exists_of_optional hsteps with hnone | ⟨steps, hsteps⟩
    · rw [hnone]
      exact ⟨fun _ => (absurd · List.not_mem_nil), by simp [duplicates]⟩
    · obtain ⟨hread, hnames⟩ := readSteps_eq_ok_iff.mp hsteps
      refine ⟨fun s hs => ?_, hnames⟩
      obtain ⟨step, hstep⟩ := exists_of_mem_readList hread s hs
      exact Step.ofValue_toValue hstep
  rw [Profile.ofValue_toValue_iff, and_iff_right (readName_of_readName hname),
    and_iff_right (readName_of_readName hbox), and_iff_right hkept]
  refine forall₂_congr fun f hf => ?_
  rcases exists_of_optional hfolders with hnone | ⟨folders, hfolders⟩
  · rw [hnone] at hf
    exact absurd hf List.not_mem_nil
  · obtain ⟨folder, hfolder⟩ := exists_of_mem_readList hfolders f hf
    exact SharedFolder.ofValue_toValue_iff_isTrimmed hhome hfolder

/-- **A set of profiles is read again as itself exactly if no host path in it has a blank at its
ends.** -/
theorem ProfileSet.ofValue_toValue_iff_isTrimmed {v : Value} {s : ProfileSet}
    (h : ProfileSet.ofValue home v = .ok s) :
    ProfileSet.ofValue home s.toValue = .ok s ↔ ∀ p ∈ s.profiles, ∀ f ∈ p.folders, f.IsTrimmed := by
  obtain ⟨fields, -, hprofiles⟩ := ProfileSet.ofValue_eq_ok_iff.mp h
  rw [ProfileSet.ofValue_toValue_iff]
  rcases exists_of_optional hprofiles with hnone | ⟨profiles, hprofiles⟩
  · simp [hnone]
  · obtain ⟨hread, hnames⟩ := readProfiles_eq_ok_iff.mp hprofiles
    rw [and_iff_left hnames]
    refine forall₂_congr fun p hp => ?_
    obtain ⟨profile, hprofile⟩ := exists_of_mem_readList hread p hp
    exact Profile.ofValue_toValue_iff_isTrimmed hhome hprofile

end Declarations

/-- **Which declarations come back when their plain form is read.**  With an absolute home directory,
a step always does; a folder, a profile and a set of profiles do exactly if no host path in them
begins or ends with a blank. -/
theorem declaration_comes_back {home : String} (hhome : home.startsWith "/" = true) :
    (∀ v s, Step.ofValue v = .ok s → Step.ofValue s.toValue = .ok s) ∧
    (∀ v f, SharedFolder.ofValue home v = .ok f →
      (SharedFolder.ofValue home f.toValue = .ok f ↔ f.IsTrimmed)) ∧
    (∀ v p, Profile.ofValue home v = .ok p →
      (Profile.ofValue home p.toValue = .ok p ↔ ∀ f ∈ p.folders, f.IsTrimmed)) ∧
    (∀ v s, ProfileSet.ofValue home v = .ok s →
      (ProfileSet.ofValue home s.toValue = .ok s ↔
        ∀ p ∈ s.profiles, ∀ f ∈ p.folders, f.IsTrimmed)) :=
  ⟨fun _ _ => Step.ofValue_toValue, fun _ _ => SharedFolder.ofValue_toValue_iff_isTrimmed hhome,
    fun _ _ => Profile.ofValue_toValue_iff_isTrimmed hhome,
    fun _ _ => ProfileSet.ofValue_toValue_iff_isTrimmed hhome⟩

/-- A folder below the home directory, in plain form. -/
def homeFolder : Value :=
  .record [("host_path", .text " ~//src/./ "), ("guest_path", .text "/w")]

/-- A folder below the home directory comes back. -/
theorem declaration_comes_back_homeFolder :
    SharedFolder.ofValue "/home/u" homeFolder = .ok ⟨"/home/u/src", "/w"⟩ ∧
      SharedFolder.ofValue "/home/u" (SharedFolder.mk "/home/u/src" "/w").toValue =
        .ok ⟨"/home/u/src", "/w"⟩ := by
  have hread : SharedFolder.ofValue "/home/u" homeFolder = .ok ⟨"/home/u/src", "/w"⟩ := by
    decide +kernel
  refine ⟨hread, ?_⟩
  exact ((declaration_comes_back (by decide +kernel)).2.1 _ _ hread).mpr (by decide +kernel)

/-- A set of one profile with one folder, in plain form.  The slash at the end of the host path
shields the blank before it. -/
def shieldedBlank : Value :=
  .record [("profiles", .list none [.record [("name", .text "osx"), ("box", .text "b"),
    ("synced_folders", .list none [.record
      [("host_path", .text "/srv/work /"), ("guest_path", .text "/w")]])]])]

/-- The profile that is read from it. -/
def profileWithBlank : ProfileSet :=
  ⟨[{ name := "osx", box := "b", folders := [⟨"/srv/work ", "/w"⟩] }]⟩

/-- **A set of profiles does not always come back**: the second time another directory is shared. -/
theorem shieldedBlank_does_not_come_back :
    ProfileSet.ofValue "/home/u" shieldedBlank = .ok profileWithBlank ∧
      ProfileSet.ofValue "/home/u" profileWithBlank.toValue =
        .ok ⟨[{ name := "osx", box := "b", folders := [⟨"/srv/work", "/w"⟩] }]⟩ ∧
      ¬ ProfileSet.ofValue "/home/u" profileWithBlank.toValue = .ok profileWithBlank := by
  decide +kernel

/-- A host path of which only a blank is left is even refused the second time. -/
example : readHostPath "/home/u" (.text "./ /") = .ok " " ∧
    readHostPath "/home/u" (.text " ") = .fault (.rule .blankHostPath) := by
  decide +kernel

end DevMachines
