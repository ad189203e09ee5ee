import DevMachines.Proofs.Session.Loading

/-!
# What resolving settings comes to

Resolving loads two documents, puts one over the other, and reports the expected keys that are in
neither.  Every statement here is about all sessions: whatever the files hold, and wherever events
and notices go.

Main statements: `resolve_mergesLayers`, which settings come out when both documents load, and
`resolve_fails_or_reports`, whose fault comes out when one does not, and what is reported.

## Why the second loading starts from where the first one ended

Loading reports events, and a session may write them to a file, so the files are not quite the same
afterwards.  What "the override exists" means is therefore asked after the first loading.
-/

namespace DevMachines
namespace Session

open Activity Settings

/-! ## Reporting missing keys -/

/-- The session after a missing key has been reported. -/
def missed (audience : Audience) (sources : List Path) (s : Session) (key : String) : Session :=
  (s.noted (missingKeyEvent key sources)).told audience (missingKeyNotice key)

/-- The session after missing keys have been reported, each as often as it occurs. -/
def missedAll (audience : Audience) (sources : List Path) (s : Session) (absent : List String) :
    Session :=
  absent.foldl (missed audience sources) s

/-- The expected keys that settings do not have are reported in order, and nothing fails. -/
theorem perform_reportMissing (audience : Audience) (settings : MergedSettings)
    (expected : List String) (s : Session) :
    (reportMissing audience settings expected).perform s =
      (.ok (), s.missedAll audience settings.sources
        (expected.filter fun key => (settings.get? key).isNone)) := by
  induction expected generalizing s with
  | nil => rfl
  | cons key expected ih =>
    rw [reportMissing]
    by_cases hkey : (settings.get? key).isNone = true
    · have hfilter : (key :: expected).filter (fun key => (settings.get? key).isNone) =
          key :: expected.filter fun key => (settings.get? key).isNone :=
        List.filter_cons_of_pos hkey
      rw [hfilter, if_pos hkey, perform_bind_ok (perform_emit _ s),
        perform_bind_ok (perform_tell _ _ _), ih]
      rfl
    · have hfilter : (key :: expected).filter (fun key => (settings.get? key).isNone) =
          expected.filter fun key => (settings.get? key).isNone :=
        List.filter_cons_of_neg hkey
      rw [hfilter, if_neg hkey, ih]

section Reports

variable (audience : Audience) (sources : List Path)

/-- A session that is listened to hears one event for each missing key. -/
theorem heard_missedAll {s : Session} (h : s.listening = true) (absent : List String) :
    (missedAll audience sources s absent).heard =
      s.heard ++ absent.map (missingKeyEvent · sources) := by
  induction absent generalizing s with
  | nil => exact (List.append_nil _).symm
  | cons key absent ih =>
    have hnext : (missed audience sources s key).listening = true := by
      rw [missed, listening_told, listening_noted, h]
    rw [missedAll, List.foldl_cons, ← missedAll, ih hnext, missed, heard_told, heard_noted h,
      List.append_assoc, List.map_cons, List.singleton_append]

/-- The caller gets one notice for each missing key, and nobody else gets any. -/
theorem notices_missedAll (s : Session) (absent : List String) :
    (missedAll audience sources s absent).notices =
      s.notices ++ if audience = .caller then absent.map missingKeyNotice else [] := by
  induction absent generalizing s with
  | nil => simp [missedAll]
  | cons key absent ih =>
    rw [missedAll, List.foldl_cons, ← missedAll, ih, missed, notices_told, notices_noted]
    split <;> simp

end Reports

/-! ## Merging -/

/-- The entries of a document that may be absent. -/
def layer (document : Option Document) : Entries := document.elim [] (·.entries)

/-- The settings of a document and a second one that may be absent. -/
def merged (defaultsPath overridesPath : Path) (defaults : Document) (overrides : Option Document) :
    MergedSettings :=
  mergeDocuments defaultsPath overridesPath defaults.entries (overrides.map (·.entries))

theorem entries_merged (defaultsPath overridesPath : Path) (defaults : Document)
    (overrides : Option Document) :
    (merged defaultsPath overridesPath defaults overrides).entries =
      overlay defaults.entries (layer overrides) := by
  cases overrides <;> rfl

theorem sources_merged (defaultsPath overridesPath : Path) (defaults : Document)
    (overrides : Option Document) :
    (merged defaultsPath overridesPath defaults overrides).sources =
      if overrides.isSome then [defaultsPath, overridesPath] else [defaultsPath] := by
  cases overrides <;> rfl

/-- The settings that two documents make, of which the second may be absent. -/
structure MergesLayers (defaultsPath overridesPath : Path) (defaults : Document)
    (overrides : Option Document) (settings : MergedSettings) : Prop where
  /-- The value of the upper layer as a whole, else the value of the lower one. -/
  value : ∀ key, settings.get? key =
    ((layer overrides).lookup key).or (defaults.entries.lookup key)
  present : ∀ key, (settings.get? key).isSome ↔
    key ∈ keys defaults.entries ∨ key ∈ keys (layer overrides)
  distinct : (keys settings.entries).Nodup
  order : keys settings.entries =
    keys defaults.entries ++ (keys (layer overrides)).filter (!(keys defaults.entries).contains ·)
  sources : settings.sources =
    if overrides.isSome then [defaultsPath, overridesPath] else [defaultsPath]
  unchanged : layer overrides = [] → settings.entries = defaults.entries

/-- A key is found exactly if it is there. -/
theorem isSome_lookup_iff {key : String} {d : Entries} :
    (d.lookup key).isSome ↔ key ∈ keys d := by
  rw [← Option.ne_none_iff_isSome, Ne, lookup_eq_none_iff, not_not]

/-- **The merge law** of documents that name each key once. -/
theorem mergesLayers_merged (defaultsPath overridesPath : Path) {defaults : Document}
    {overrides : Option Document} (hdefaults : (keys defaults.entries).Nodup)
    (hoverrides : (keys (layer overrides)).Nodup) :
    MergesLayers defaultsPath overridesPath defaults overrides
      (merged defaultsPath overridesPath defaults overrides) := by
  have hvalue : ∀ key, (merged defaultsPath overridesPath defaults overrides).get? key =
      ((layer overrides).lookup key).or (defaults.entries.lookup key) := by
    intro key
    rw [Merged.get?, entries_merged]
    exact lookup_overlay _ hoverrides key
  refine ⟨hvalue, fun key => ?_, ?_, ?_, sources_merged .., fun hnil => ?_⟩
  · rw [hvalue, Option.isSome_or, Bool.or_eq_true, isSome_lookup_iff, isSome_lookup_iff, or_comm]
  · rw [entries_merged]
    exact keysDiffer_iff_nodup.mp ((keysDiffer_iff_nodup.mpr hdefaults).overlay _)
  · rw [entries_merged]
    exact keys_overlay _ hoverrides
  · rw [entries_merged, hnil, overlay_nil]

/-- The expected keys that are in neither of two layers. -/
def inNeither (defaults overrides : Entries) (expected : List String) : List String :=
  expected.filter fun key => !(keys defaults).contains key && !(keys overrides).contains key

/-- What is reported of merged settings is what neither layer has. -/
theorem MergesLayers.filter_isNone {defaultsPath overridesPath : Path} {defaults : Document}
    {overrides : Option Document} {settings : MergedSettings}
    (h : MergesLayers defaultsPath overridesPath defaults overrides settings)
    (expected : List String) :
    expected.filter (fun key => (settings.get? key).isNone) =
      inNeither defaults.entries (layer overrides) expected := by
  refine List.filter_congr fun key _ => ?_
  rw [Bool.eq_iff_iff, Option.isNone_iff_eq_none, ← Option.not_isSome_iff_eq_none, h.present]
  simp

/-! ## Resolving -/

/-- Between two sessions there is nothing but events of loading, and perhaps an interruption that is
no longer to come. -/
def OnlyLoads (s t : Session) : Prop :=
  ∃ events pending, (∀ e ∈ events, e.name ≠ "settings_key_missing") ∧
    t = { s.notedAll events with interruptPending := pending }

/-- Loading brings no notices. -/
theorem OnlyLoads.notices {s t : Session} (h : OnlyLoads s t) : t.notices = s.notices := by
  obtain ⟨events, pending, -, rfl⟩ := h
  exact notices_notedAll s events

/-- Loading prints nothing. -/
theorem OnlyLoads.output {s t : Session} (h : OnlyLoads s t) : t.output = s.output := by
  obtain ⟨events, pending, -, rfl⟩ := h
  exact output_notedAll s events

theorem OnlyLoads.listening {s t : Session} (h : OnlyLoads s t) : t.listening = s.listening := by
  obtain ⟨events, pending, -, rfl⟩ := h
  exact listening_notedAll s events

/-- What is heard of loading is not about missing keys. -/
theorem OnlyLoads.heard {s t : Session} (h : OnlyLoads s t) (hlistening : s.listening = true) :
    ∃ events, (∀ e ∈ events, e.name ≠ "settings_key_missing") ∧ t.heard = s.heard ++ events := by
  obtain ⟨events, pending, hnames, rfl⟩ := h
  exact ⟨events, hnames, heard_notedAll hlistening events⟩

/-- No event of loading is about a missing key. -/
theorem name_of_mem_loadEvents {path : Path} {document : Option Document} {e : Log.Event}
    (h : e ∈ loadEvents path document) : e.name ≠ "settings_key_missing" := by
  unfold loadEvents at h
  split at h
  · have habsent : "settings_override_absent" ≠ "settings_key_missing" := by decide
    obtain rfl := List.mem_singleton.mp h
    exact habsent
  · have hloaded : "settings_loaded" ≠ "settings_key_missing" := by decide
    obtain rfl := List.mem_singleton.mp h
    exact hloaded
  · exact absurd h List.not_mem_nil

/-- One loading more, after events that are not about missing keys. -/
theorem onlyLoads_of_loadDocument {number : Nat} {path : Path} {isRequired : Bool} {s t : Session}
    {events : List Log.Event} {result : Except Failure (Option Document)}
    (hevents : ∀ e ∈ events, e.name ≠ "settings_key_missing")
    (h : (loadDocument number path isRequired).perform (s.notedAll events) = (result, t)) :
    OnlyLoads s t := by
  cases result with
  | error failure =>
    obtain ⟨pending, rfl⟩ := eq_of_loadDocument_error h
    exact ⟨events, pending, hevents, rfl⟩
  | ok document =>
    refine ⟨events ++ loadEvents path document, t.interruptPending, fun e he => ?_, ?_⟩
    · rcases List.mem_append.mp he with hbefore | hnow
      · exact hevents e hbefore
      · exact name_of_mem_loadEvents hnow
    · rw [notedAll_append, ← eq_notedAll_of_loadDocument h]

section Resolving

variable {defaultsPath overridesPath : Path} {expected : List String} {audience : Audience}
  {s s₁ s₂ : Session} {defaults : Document} {overrides : Option Document}
  {first second : Except Failure (Option Document)}

/-- The second loading goes on where the first one ended. -/
theorem onlyLoads_of_second {result : Option Document}
    (hfirst : (loadDocument 0 defaultsPath true).perform s = (.ok result, s₁))
    (hsecond : (loadDocument 1 overridesPath false).perform s₁ = (second, s₂)) :
    OnlyLoads s s₂ := by
  rw [eq_notedAll_of_loadDocument hfirst] at hsecond
  exact onlyLoads_of_loadDocument (fun e he => name_of_mem_loadEvents he) hsecond

/-- When both documents load, their settings come out, and what neither has is reported. -/
theorem perform_resolve
    (hdefaults : (loadDocument 0 defaultsPath true).perform s = (.ok (some defaults), s₁))
    (hoverrides : (loadDocument 1 overridesPath false).perform s₁ = (.ok overrides, s₂)) :
    ∃ settings, MergesLayers defaultsPath overridesPath defaults overrides settings ∧
      (resolve defaultsPath overridesPath expected audience).perform s =
        (.ok settings, s₂.missedAll audience settings.sources
          (inNeither defaults.entries (layer overrides) expected)) := by
  have hlower := nodup_keys_of_loadDocument hdefaults
  have hupper : (keys (layer overrides)).Nodup := by
    cases overrides with
    | none => exact List.nodup_nil
    | some document => exact nodup_keys_of_loadDocument hoverrides
  have hmerge := mergesLayers_merged defaultsPath overridesPath hlower hupper
  refine ⟨_, hmerge, ?_⟩
  rw [resolve, perform_bind_ok hdefaults, perform_bind_ok hoverrides, ← hmerge.filter_isNone]
  exact perform_bind_ok (perform_reportMissing audience _ expected s₂) _

/-- When the defaults do not load, nothing follows. -/
theorem perform_resolve_of_first_error {failure : Failure}
    (h : (loadDocument 0 defaultsPath true).perform s = (.error failure, s₁)) :
    (resolve defaultsPath overridesPath expected audience).perform s = (.error failure, s₁) := by
  rw [resolve, perform_bind_error h]

/-- When the overrides do not load, nothing follows, either. -/
theorem perform_resolve_of_second_error {failure : Failure}
    (hdefaults : (loadDocument 0 defaultsPath true).perform s = (.ok (some defaults), s₁))
    (h : (loadDocument 1 overridesPath false).perform s₁ = (.error failure, s₂)) :
    (resolve defaultsPath overridesPath expected audience).perform s = (.error failure, s₂) := by
  rw [resolve, perform_bind_ok hdefaults, perform_bind_error h]

/-- The failure that comes out is the one of the defaults, or else the one of the overrides. -/
theorem resolve_eq_error_iff
    (hfirst : (loadDocument 0 defaultsPath true).perform s = (first, s₁))
    (hsecond : (loadDocument 1 overridesPath false).perform s₁ = (second, s₂))
    (failure : Failure) :
    ((resolve defaultsPath overridesPath expected audience).perform s).1 = .error failure ↔
      first = .error failure ∨ (∃ document, first = .ok document) ∧ second = .error failure := by
  cases first with
  | error fault =>
    rw [perform_resolve_of_first_error hfirst]
    simp
  | ok result =>
    obtain ⟨document, rfl⟩ := exists_of_loadDocument hfirst
    cases second with
    | error fault =>
      rw [perform_resolve_of_second_error hfirst hsecond]
      simp
    | ok overrides =>
      obtain ⟨settings, -, hrun⟩ := perform_resolve hfirst hsecond
      rw [hrun]
      simp

/-- A failure comes before anything is said about expected keys. -/
theorem onlyLoads_of_resolve_error {failure : Failure}
    (h : ((resolve defaultsPath overridesPath expected audience).perform s).1 = .error failure) :
    OnlyLoads s ((resolve defaultsPath overridesPath expected audience).perform s).2 := by
  rcases hfirst : (loadDocument 0 defaultsPath true).perform s with ⟨first, s₁⟩
  rcases hsecond : (loadDocument 1 overridesPath false).perform s₁ with ⟨second, s₂⟩
  cases first with
  | error fault =>
    rw [perform_resolve_of_first_error hfirst]
    have hnone : ∀ e ∈ ([] : List Log.Event), e.name ≠ "settings_key_missing" := nofun
    exact onlyLoads_of_loadDocument hnone hfirst
  | ok result =>
    obtain ⟨document, rfl⟩ := exists_of_loadDocument hfirst
    cases second with
    | error fault =>
      rw [perform_resolve_of_second_error hfirst hsecond]
      exact onlyLoads_of_second hfirst hsecond
    | ok overrides =>
      obtain ⟨settings, -, hrun⟩ := perform_resolve hfirst hsecond
      rw [hrun] at h
      cases h

/-- **When both documents load, the settings follow the merge law**; the second document is absent
exactly if there was no file for it. -/
theorem resolve_mergesLayers
    (hdefaults : (loadDocument 0 defaultsPath true).perform s = (.ok (some defaults), s₁))
    (hoverrides : (loadDocument 1 overridesPath false).perform s₁ = (.ok overrides, s₂)) :
    ∃ settings t, (resolve defaultsPath overridesPath expected audience).perform s =
        (.ok settings, t) ∧
      MergesLayers defaultsPath overridesPath defaults overrides settings ∧
      s₁.contains overridesPath = .ok overrides.isSome := by
  obtain ⟨settings, hmerge, hrun⟩ := perform_resolve hdefaults hoverrides
  exact ⟨settings, _, hrun, hmerge, contains_of_loadDocument hoverrides⟩

end Resolving

/-- Does loading give a document with a property? -/
def loads (p : Document → Bool) (run : Except Failure (Option Document) × Session) : Bool :=
  match run.1 with
  | .ok (some document) => p document
  | _ => false

theorem exists_of_loads {p : Document → Bool} {run : Except Failure (Option Document) × Session}
    (h : loads p run = true) : ∃ document, run = (.ok (some document), run.2) ∧ p document := by
  rcases run with ⟨failure | document | document, s⟩
  · cases h
  · cases h
  · exact ⟨document, rfl, h⟩

/-- A session with two documents; the second one unsets a key of the first one and adds one. -/
def twoDocuments : Session where
  environment := { home := "/home/tester", configuredRoot := none, workingDirectory := ⟨1, []⟩ }
  files := ⟨[(["base.yml"], .file (Text.encode "a: 1\nb: 2\n")),
    (["own.yml"], .file (Text.encode "c: 3\nb:\n"))]⟩

theorem resolve_mergesLayers_twoDocuments :
    ∃ settings t, (resolve ⟨0, ["base.yml"]⟩ ⟨0, ["own.yml"]⟩ [] .nobody).perform twoDocuments =
        (.ok settings, t) ∧
      keys settings.entries = ["a", "b", "c"] ∧
      (settings.get? "b").map Value.kindName = some "NoneType" ∧
      settings.sources = [⟨0, ["base.yml"]⟩, ⟨0, ["own.yml"]⟩] := by
  let first := (loadDocument 0 ⟨0, ["base.yml"]⟩ true).perform twoDocuments
  let second := (loadDocument 1 ⟨0, ["own.yml"]⟩ false).perform first.2
  have hfirst : loads (fun d => keys d.entries = ["a", "b"]) first = true := by decide +kernel
  have hsecond : loads (fun d => keys d.entries = ["c", "b"] ∧
      (d.entries.lookup "b").map Value.kindName = some "NoneType") second = true := by
    decide +kernel
  obtain ⟨defaults, hdefaults, hlower⟩ := exists_of_loads hfirst
  obtain ⟨overrides, hoverrides, hupper⟩ := exists_of_loads hsecond
  obtain ⟨hupper, hnull⟩ := of_decide_eq_true hupper
  obtain ⟨settings, t, hrun, hmerge, -⟩ := resolve_mergesLayers hdefaults hoverrides
  refine ⟨settings, t, hrun, ?_, ?_, hmerge.sources⟩
  · rw [hmerge.order, of_decide_eq_true hlower, show keys (layer (some overrides)) = _ from hupper]
    rfl
  · obtain ⟨value, hvalue, hkind⟩ := Option.map_eq_some_iff.mp hnull
    rw [hmerge.value, show (layer (some overrides)).lookup "b" = _ from hvalue]
    exact congrArg some hkind

/-- **The first document that does not load is blamed, and then nothing is said about keys; when
both load, each expected key that is in neither is reported**, in order and as often as it is
expected.  A session that is not listened to writes the same events as records. -/
theorem resolve_fails_or_reports (defaultsPath overridesPath : Path) (expected : List String)
    (audience : Audience) (s : Session) :
    let first := (loadDocument 0 defaultsPath true).perform s
    let second := (loadDocument 1 overridesPath false).perform first.2
    let run := (resolve defaultsPath overridesPath expected audience).perform s
    (∀ fault, run.1 = .error (.document fault) ↔
      first.1 = .error (.document fault) ∨
        (∃ document, first.1 = .ok document) ∧ second.1 = .error (.document fault)) ∧
    (∀ fault, first.1 = .error (.document fault) → fault.path = defaultsPath) ∧
    (∀ fault, second.1 = .error (.document fault) →
      fault.path = overridesPath ∧ first.2.contains overridesPath = .ok true) ∧
    (∀ failure, run.1 = .error failure → OnlyLoads s run.2 ∧
      run.2.notices = s.notices ∧ run.2.output = s.output) ∧
    (∀ defaults overrides, first.1 = .ok (some defaults) → second.1 = .ok overrides →
      let absent := inNeither defaults.entries (layer overrides) expected
      ∃ settings, run = (.ok settings, second.2.missedAll audience settings.sources absent) ∧
        settings.sources =
          (if overrides.isSome then [defaultsPath, overridesPath] else [defaultsPath]) ∧
        OnlyLoads s second.2 ∧
        (s.listening = true → ∃ events, (∀ e ∈ events, e.name ≠ "settings_key_missing") ∧
          run.2.heard = s.heard ++ events ++ absent.map (missingKeyEvent · settings.sources)) ∧
        run.2.notices =
          s.notices ++ if audience = .caller then absent.map missingKeyNotice else []) := by
  intro first second run
  refine ⟨fun fault => resolve_eq_error_iff rfl rfl _, fun fault h => ?_, fun fault h => ?_,
    fun failure h => ?_, fun defaults overrides hdefaults hoverrides => ?_⟩
  · exact (path_of_loadDocument_error (Prod.ext h rfl : first = (_, first.2))).1
  · obtain ⟨hpath, hthere⟩ :=
      path_of_loadDocument_error (Prod.ext h rfl : second = (_, second.2))
    exact ⟨hpath, hthere rfl⟩
  · have honly := onlyLoads_of_resolve_error h
    exact ⟨honly, honly.notices, honly.output⟩
  · have hfirst : first = (.ok (some defaults), first.2) := Prod.ext hdefaults rfl
    have hsecond : second = (.ok overrides, second.2) := Prod.ext hoverrides rfl
    obtain ⟨settings, hmerge, hrun⟩ := perform_resolve hfirst hsecond
    have honly := onlyLoads_of_second hfirst hsecond
    refine ⟨settings, hrun, hmerge.sources, honly, fun hlistening => ?_, ?_⟩
    · obtain ⟨events, hnames, hheard⟩ := honly.heard hlistening
      refine ⟨events, hnames, ?_⟩
      rw [show run = _ from hrun, heard_missedAll _ _ (honly.listening.trans hlistening), hheard]
    · rw [show run = _ from hrun, notices_missedAll, honly.notices]

end Session
end DevMachines
