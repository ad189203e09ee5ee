import DevMachines.Proofs.Session.CopyBeside
import DevMachines.Proofs.Text.Utf8
import DevMachines.Proofs.Yaml.Writing

/-!
# Loading what has been written

Settings that are written as YAML and saved under a path are loaded from there with the same keys in
the same order and the same values.  The objects in these have other labels then, but one label for each:
what is one object in the settings is one in the document, and what is not one is not.

Main statements: `exists_loadDocument_saved` and `resolvesTo_of_loadSettings`.

## What is asked of the settings

A value is read as it was if its scalars come back, its texts fit on the page, and its collections are
views of objects, so that an alias shows the same as the node it stands for.  `ReadBack` says all that of
the values of settings.
-/

namespace DevMachines

/-! ## Settings that can be written -/

namespace Settings

/-- Entries as pairs of values. -/
def Entries.values (entries : Entries) : List (Value × Value) :=
  entries.map fun e => (.text e.1, e.2)

/-- Entries with other labels for the objects in their values. -/
def Entries.renamed (names : Label → Option Label) (entries : Entries) : Entries :=
  entries.map fun e => (e.1, e.2.renamed names)

/-- Do labels stand for one label each? -/
def AreDistinct (names : Label → Option Label) : Prop :=
  ∀ a b l, names a = some l → names b = some l → a = b

/-- Can entries be read back from what is written of them?  Their keys differ, and their values are views
of objects, without parts that are lost. -/
structure ReadBack (entries : Entries) : Prop where
  distinct : (keys entries).Nodup
  restorable : ∀ e ∈ entries, Yaml.IsRestorable e.2
  fits : Yaml.entriesFit 0 entries.values
  views : ∃ objects, Yaml.AreObjects objects ∧ ∀ e ∈ entries, Yaml.Unfolds objects [] e.2

theorem ReadBack.isRestorable {entries : Entries} (h : ReadBack entries) :
    Yaml.IsRestorable (.map none entries.values) := by
  have hkeys : entries.values.map (·.1) = (keys entries).map Value.text := by
    simp [Entries.values, keys]
  refine Value.everywhere_map_iff.mpr ⟨⟨?_, ?_⟩, List.forall_mem_map.mpr fun e he => ⟨?_, h.restorable e he⟩⟩
  · rw [hkeys, List.forall_mem_map]
    exact fun _ _ => trivial
  · rw [hkeys, List.pairwise_map]
    refine h.distinct.imp fun hne => ?_
    rw [Value.eq]
    exact beq_eq_false_iff_ne.mpr hne
  · exact (Value.everywhere_scalar_iff (v := .text e.1) trivial).mpr (Yaml.comesBack_text e.1)

/-! ## The text of settings -/

/-- The text of settings is ASCII. -/
theorem onPage_render {entries : Entries} (hsome : entries ≠ []) (h : ReadBack entries) :
    ∀ c ∈ (Yaml.render entries.values).toList, Yaml.OnPage c := by
  have hsome' : entries.values ≠ [] := by simpa [Entries.values] using hsome
  obtain ⟨objects, -, hviews⟩ := h.views
  obtain ⟨written, -, -, hreadable, hchars⟩ :=
    Yaml.exists_render hsome' h.isRestorable h.fits (List.forall_mem_map.mpr hviews)
  rw [hchars, List.forall_mem_append]
  exact ⟨Yaml.Written.onPage_entries (fun _ hc => absurd hc List.not_mem_nil) written hreadable,
    List.forall_mem_singleton.mpr (.inl rfl)⟩

/-- The octets of that text are read as it. -/
theorem decode_render {entries : Entries} (hsome : entries ≠ []) (h : ReadBack entries) :
    (Text.decode (Text.encode (Yaml.render entries.values))).map Text.unifyLineEnds =
      .ok (Yaml.render entries.values).toList := by
  have hpage := onPage_render hsome h
  have hascii : ∀ c ∈ (Yaml.render entries.values).toList, c.toNat < 0x80 := by
    intro c hc
    rcases hpage c hc with rfl | hcolumn
    · decide
    · have hbounds := hcolumn.bounds
      omega
  have hreturn : '\r' ∉ (Yaml.render entries.values).toList := by
    intro hc
    exact absurd (hpage _ hc) (by decide)
  rw [Text.decode_encode hascii, Except.map, Text.unifyLineEnds_eq hreturn]

/-- Entries that are those of settings, with other labels, have texts for keys. -/
theorem textEntries_of_renamed {names : Label → Option Label} {read : List (Value × Value)}
    {entries : Entries} (h : Value.renamedEntries names read = entries.values) :
    badKeys read = [] ∧ (textEntries read).renamed names = entries := by
  induction entries generalizing read with
  | nil =>
    cases read with
    | nil => exact ⟨rfl, rfl⟩
    | cons e read => cases h
  | cons e entries ih =>
    cases read with
    | nil => cases h
    | cons first read =>
      obtain ⟨key, value⟩ := first
      obtain ⟨hfirst, hrest⟩ := List.cons.inj h
      obtain ⟨hbad, hsame⟩ := ih hrest
      obtain ⟨hkey, hvalue⟩ := Prod.mk.inj hfirst
      obtain rfl : key = .text e.1 := by
        cases key <;> cases hkey
        rfl
      refine ⟨hbad, ?_⟩
      show (e.1, value.renamed names) :: (textEntries read).renamed names = _
      rw [hvalue, hsame]

/-- **The text of settings is a document with their entries.** -/
theorem exists_ofText_render {entries : Entries} (hsome : entries ≠ []) (h : ReadBack entries)
    (number : Nat) (path : Path) :
    ∃ document names, Document.ofText number path (Yaml.render entries.values).toList = .ok document ∧
      AreDistinct names ∧ document.entries.renamed names = entries := by
  have hsome' : entries.values ≠ [] := by simpa [Entries.values] using hsome
  obtain ⟨objects, hobjects, hviews⟩ := h.views
  have hvalues : ∀ e ∈ entries.values, Yaml.Unfolds objects [] e.1 ∧ Yaml.Unfolds objects [] e.2 :=
    List.forall_mem_map.mpr fun e he => ⟨.scalar trivial nofun, hviews e he⟩
  obtain ⟨names, v, hread, hnames, hsame⟩ := Yaml.readValue_render hsome' h.isRestorable h.fits hvalues
    hobjects number
  cases v with
  | map label read =>
    obtain ⟨hbad, hentries⟩ := textEntries_of_renamed (Value.map.inj hsame).2
    refine ⟨⟨label, textEntries read⟩, names, ?_, hnames, hentries⟩
    rw [Document.ofText, hread]
    dsimp only
    rw [Document.ofValue, hbad]
  | _ => cases hsame

end Settings

namespace Session

open Activity Settings

/-! ## Loading it -/

/-- Does a file hold a text, under a path that can be asked for, without an interruption to come? -/
structure HasSaved (s : Session) (path : Path) (text : String) : Prop where
  noNul : path.hasNul = false
  saved : ∃ place, s.files.destination s.environment.workingDirectory path = .ok place ∧
    s.files.get? place = some (.file (Text.encode text))
  undisturbed : s.interruptPending = false

/-- **Settings that have been saved are loaded**, with the same keys in the same order and the same
values. -/
theorem exists_loadDocument_saved {entries : Entries} (hsome : entries ≠ []) (h : ReadBack entries)
    {s : Session} {path : Path} (hsaved : s.HasSaved path (Yaml.render entries.values)) (number : Nat)
    (isRequired : Bool) :
    ∃ document names, (loadDocument number path isRequired).perform s =
        (.ok (some document), s.notedAll (loadEvents path (some document))) ∧
      AreDistinct names ∧ document.entries.renamed names = entries := by
  obtain ⟨hnul, ⟨place, hplace, hfile⟩, hpending⟩ := hsaved
  obtain ⟨document, names, htext, hnames, hsame⟩ := exists_ofText_render hsome h number path
  have hread := (readChars_eq_ok_iff hnul hplace hfile _).mpr (decode_render hsome h)
  exact ⟨document, names, perform_loadDocument_found hpending hread htext, hnames, hsame⟩

/-! ## What the settings of a project are -/

/-- What succeeds as an operation has succeeded by itself. -/
theorem exists_of_operation_ok {α : Type} {name : String} {context : Log.Fields}
    {body : Log.Fields → Activity α} {s u : Session} {x : α}
    (h : (operation name context body).perform s = (.ok x, u)) :
    ∃ t v, OnlyLogs s t ∧ (body (operationFields name context)).perform t = (.ok x, v) := by
  rw [operation] at h
  cases hnames : takenField context with
  | some field =>
    rw [perform_operationOn_refused hnames] at h
    cases congrArg Prod.fst h
  | none =>
    obtain ⟨clock, hoperation⟩ := perform_operationOn hnames [] name body s
    rcases hbody : (body (operationFields name context)).perform
      (({ s with clock } : Session).noted (openingEvent name (operationFields name context)))
      with ⟨result, v⟩
    obtain ⟨_, _, hrun⟩ := hoperation result v hbody
    obtain rfl : result = .ok x := congrArg Prod.fst (hrun.symm.trans h)
    exact ⟨_, v, isChained_onlyLogs.trans ((bookkeeping_onlyLogs .nobody).clock s clock)
      (onlyLogs_noted _ _), hbody⟩

/-- Do the two documents of a project come to settings, as a session finds them? -/
def ResolvesTo (s : Session) (given : Option Path) (settings : MergedSettings) : Prop :=
  ∃ directory first second last defaults overrides,
    Settings.projectRoot s.environment given = .ok directory ∧ OnlyLogs s first ∧
    (loadDocument 0 (directory.child defaultsName) true).perform first =
      (.ok (some defaults), second) ∧
    (loadDocument 1 (directory.child overridesName) false).perform second = (.ok overrides, last) ∧
    MergesLayers (directory.child defaultsName) (directory.child overridesName) defaults overrides
      settings

theorem ResolvesTo.nodup {s : Session} {given : Option Path} {settings : MergedSettings}
    (h : s.ResolvesTo given settings) : (keys settings.entries).Nodup := by
  obtain ⟨_, _, _, _, _, _, _, _, _, _, hmerge⟩ := h
  exact hmerge.distinct

/-- Settings that have been resolved are those of two documents. -/
theorem exists_of_resolve_ok {defaultsPath overridesPath : Path} {expected : List String}
    {audience : Audience} {s u : Session} {settings : MergedSettings}
    (h : (resolve defaultsPath overridesPath expected audience).perform s = (.ok settings, u)) :
    ∃ second last defaults overrides,
      (loadDocument 0 defaultsPath true).perform s = (.ok (some defaults), second) ∧
      (loadDocument 1 overridesPath false).perform second = (.ok overrides, last) ∧
      MergesLayers defaultsPath overridesPath defaults overrides settings := by
  rcases hfirst : (loadDocument 0 defaultsPath true).perform s with ⟨failure | read, second⟩
  · rw [perform_resolve_of_first_error hfirst] at h
    cases congrArg Prod.fst h
  obtain ⟨defaults, rfl⟩ := exists_of_loadDocument hfirst
  rcases hsecond : (loadDocument 1 overridesPath false).perform second with ⟨failure | overrides, last⟩
  · rw [perform_resolve_of_second_error hfirst hsecond] at h
    cases congrArg Prod.fst h
  obtain ⟨resolved, hmerge, hrun⟩ := perform_resolve hfirst hsecond
  obtain rfl := Except.ok.inj (congrArg Prod.fst (hrun.symm.trans h))
  exact ⟨second, last, defaults, overrides, rfl, hsecond, hmerge⟩

/-- **The settings that are loaded are those of the two documents of the project.** -/
theorem resolvesTo_of_loadSettings {given : Option Path} {audience : Audience} {s u : Session}
    {settings : MergedSettings} (h : (loadSettings given audience).perform s = (.ok settings, u)) :
    s.ResolvesTo given settings := by
  rw [loadSettings] at h
  cases hroot : Settings.projectRoot s.environment given with
  | error fault =>
    have hlook := perform_projectRoot given s
    rw [hroot] at hlook
    rw [perform_bind_error hlook] at h
    cases congrArg Prod.fst h
  | ok directory =>
    rw [perform_bind_ok (perform_projectRoot_ok hroot)] at h
    obtain ⟨t, v, honly, hresolve⟩ := exists_of_operation_ok h
    have hnoted := onlyLogs_notedAll
    have hroot' : Settings.projectRoot t.environment given = .ok directory := by
      rw [honly.environment, environment_notedAll, hroot]
    rw [perform_resolveProject hroot'] at hresolve
    obtain ⟨second, last, defaults, overrides, hdefaults, hoverrides, hmerge⟩ :=
      exists_of_resolve_ok hresolve
    exact ⟨directory, _, second, last, defaults, overrides, hroot,
      isChained_onlyLogs.trans (isChained_onlyLogs.trans (hnoted s _) honly) (hnoted t _), hdefaults,
      hoverrides, hmerge⟩

end Session
end DevMachines
