import DevMachines.Proofs.Session.Operations
import DevMachines.Proofs.Session.Tracing

/-!
# Loading settings that fails

Loading the settings of a project is an operation: it reports that it began, looks for the project
root several times, loads one document or both, and reports how it ended.  When a document does not
load, its fault is what comes out, and what has been reported by then is known event by event.

Main statement: `perform_loadSettings_of_failsToLoad`.

## Why the fault can be asked for beforehand

Events are written to a file, so the files are not the same when the documents are read as when the
run began.  A document does not notice as long as the log goes elsewhere (`AvoidsSettings`): what a
path holds depends on its own place and on the directories, and neither has changed.  So
`FailsToLoad` can be asked of any session before.
-/

namespace DevMachines

/-! ## What a document holds in two file systems -/

/-- The characters of a document depend on the place that its path leads to. -/
theorem FileTree.SameBut.readChars_eq {p : Place → Prop} {t u : FileTree} {here path : Path}
    (h : SameBut p t u) (hp : ∀ place, t.destination here path = .ok place → ¬ p place) :
    Settings.readChars u here path = Settings.readChars t here path := by
  rw [Settings.readChars, Settings.readChars, h.contains_eq hp]
  split
  · rfl
  · rfl
  · next hthere => rw [h.read_eq hp hthere]

namespace Session

open Activity Settings

/-- Loading a document depends on what its file holds, and on whether an interruption is coming. -/
theorem fst_loadDocument_congr {number : Nat} {path : Path} {isRequired : Bool} {s t : Session}
    (hread : readChars t.files t.environment.workingDirectory path =
      readChars s.files s.environment.workingDirectory path)
    (hpending : t.interruptPending = s.interruptPending) :
    ((loadDocument number path isRequired).perform t).1 =
      ((loadDocument number path isRequired).perform s).1 := by
  rw [loadDocument, perform_bind_ok (perform_get t), perform_bind_ok (perform_get s), hread]
  cases readChars s.files s.environment.workingDirectory path with
  | error fault => rfl
  | ok content =>
    rw [perform_bind_ok (perform_orFail_ok _ content t),
      perform_bind_ok (perform_orFail_ok _ content s)]
    cases content with
    | none =>
      cases isRequired with
      | true => rfl
      | false =>
        have habsent : ∀ s : Session, ((emitAll (loadEvents path none) >>= fun _ =>
            (pure none : Activity (Option Document))).perform s).1 = .ok none := by
          intro s
          rw [perform_bind_ok (perform_emitAll _ s), perform_pure]
        exact (habsent t).trans (habsent s).symm
    | some chars =>
      dsimp only
      rw [perform_bind, perform_bind, perform_takeInterruption, perform_takeInterruption, hpending]
      cases s.interruptPending with
      | true => rfl
      | false =>
        rw [if_neg Bool.false_ne_true, if_neg Bool.false_ne_true]
        dsimp only
        cases Document.ofText number path chars with
        | error fault => rfl
        | ok document =>
          rw [perform_bind_ok (perform_orFail_ok _ document t),
            perform_bind_ok (perform_orFail_ok _ document s),
            perform_bind_ok (perform_emitAll _ t), perform_bind_ok (perform_emitAll _ s)]
          rfl

/-! ## Resolving the settings of a project -/

/-- Resolving the settings of a project is resolving its two documents, after the project root has
been looked for twice. -/
theorem perform_resolveProject {given : Option Path} {s : Session} {root : Path}
    (h : Settings.projectRoot s.environment given = .ok root)
    (expected : List String) (audience : Audience) :
    let events := projectRootEvents s.environment given
    (resolveProject given expected audience).perform s =
      (resolve (root.child defaultsName) (root.child overridesName) expected audience).perform
        (s.notedAll (events ++ events)) := by
  intro events
  have hnext : Settings.projectRoot (s.notedAll events).environment given = .ok root := by
    rw [environment_notedAll, h]
  rw [resolveProject, perform_bind_ok (perform_defaultsPath h),
    perform_bind_ok (perform_overridesPath hnext), environment_notedAll, notedAll_append]

/-! ## Documents that do not load -/

/-- Does a fault come out of the two documents of a project: out of the defaults, or else out of the
user's own settings? -/
def FailsToLoad (s : Session) (root : Path) (fault : DocumentFault) : Prop :=
  let first := ((loadDocument 0 (root.child defaultsName) true).perform s).1
  let second := ((loadDocument 1 (root.child overridesName) false).perform s).1
  first = .error (.document fault) ∨
    (∃ document, first = .ok document) ∧ second = .error (.document fault)

/-- Does a path lead to no place with a property? -/
def Avoids (s : Session) (p : Place → Prop) (path : Path) : Prop :=
  ∀ place, s.files.destination s.environment.workingDirectory path = .ok place → ¬ p place

/-- The places of the two documents of a project do not have a property. -/
structure AvoidsSettings (s : Session) (p : Place → Prop) (root : Path) : Prop where
  defaults : s.Avoids p (root.child defaultsName)
  overrides : s.Avoids p (root.child overridesName)

section FailsToLoad

variable {s t : Session} {p q r : Place → Prop} {root : Path} {fault : DocumentFault}

/-- Loading a document is the same as long as its file is. -/
theorem fst_loadDocument_of_sameBut {number : Nat} {path : Path} {isRequired : Bool}
    (hfiles : s.files.SameBut p t.files)
    (hhere : t.environment.workingDirectory = s.environment.workingDirectory)
    (hpending : t.interruptPending = s.interruptPending) (hp : s.Avoids p path) :
    ((loadDocument number path isRequired).perform t).1 =
      ((loadDocument number path isRequired).perform s).1 := by
  refine fst_loadDocument_congr ?_ hpending
  rw [hhere]
  exact hfiles.readChars_eq hp

/-- A fault stays as long as the files of the documents do. -/
theorem FailsToLoad.of_sameBut (h : FailsToLoad s root fault)
    (hfiles : s.files.SameBut p t.files) (henvironment : t.environment = s.environment)
    (hpending : t.interruptPending = s.interruptPending) (hp : s.AvoidsSettings p root) :
    FailsToLoad t root fault := by
  have hhere := congrArg Environment.workingDirectory henvironment
  rw [FailsToLoad, fst_loadDocument_of_sameBut hfiles hhere hpending hp.defaults,
    fst_loadDocument_of_sameBut hfiles hhere hpending hp.overrides]
  exact h

/-- The places of the documents stay what they are, too, and so they avoid fewer places. -/
theorem AvoidsSettings.of_sameBut (h : s.AvoidsSettings p root)
    (hfiles : s.files.SameBut q t.files) (henvironment : t.environment = s.environment)
    (hp : ∀ place, r place → p place) : t.AvoidsSettings r root := by
  have hpath : ∀ {path}, s.Avoids p path → t.Avoids r path := by
    intro path hpath place hplace hr
    rw [henvironment, hfiles.destination_eq_ok_iff] at hplace
    exact hpath place hplace (hp place hr)
  exact ⟨hpath h.defaults, hpath h.overrides⟩

/-- **The first fault comes out of resolving**, and before it nothing is reported but that the
defaults have been loaded. -/
theorem perform_resolve_of_failsToLoad (h : FailsToLoad s root fault)
    (hlog : s.AvoidsSettings s.IsLogPlace root) (expected : List String) (audience : Audience) :
    ∃ events pending,
      (events = [] ∨ ∃ document, events = loadEvents (root.child defaultsName) (some document)) ∧
      (resolve (root.child defaultsName) (root.child overridesName) expected audience).perform s =
        (.error (.document fault), { s.notedAll events with interruptPending := pending }) := by
  rcases hfirst : (loadDocument 0 (root.child defaultsName) true).perform s with ⟨first, s₁⟩
  rw [FailsToLoad, hfirst] at h
  rcases h with h | ⟨⟨result, h⟩, hsecond⟩
  · obtain rfl : first = .error (.document fault) := h
    obtain ⟨pending, rfl⟩ := eq_of_loadDocument_error hfirst
    exact ⟨[], pending, Or.inl rfl, perform_resolve_of_first_error hfirst⟩
  · obtain rfl : first = .ok result := h
    obtain ⟨document, rfl⟩ := exists_of_loadDocument hfirst
    obtain rfl := eq_notedAll_of_loadDocument hfirst
    have honly := onlyLogs_notedAll s
      (loadEvents (root.child defaultsName) (some document))
    have hsame := (fst_loadDocument_of_sameBut honly.files
      (congrArg Environment.workingDirectory honly.environment)
      (interruptPending_notedAll s _) hlog.overrides).trans hsecond
    rcases hrun : (loadDocument 1 (root.child overridesName) false).perform
      (s.notedAll (loadEvents (root.child defaultsName) (some document))) with ⟨second, s₂⟩
    rw [hrun] at hsame
    obtain rfl : second = .error (.document fault) := hsame
    obtain ⟨pending, hend⟩ := eq_of_loadDocument_error hrun
    refine ⟨_, pending, Or.inr ⟨document, rfl⟩, ?_⟩
    rw [perform_resolve_of_second_error hfirst hrun]
    exact congrArg (Prod.mk _) hend

end FailsToLoad

/-! ## Loading the settings of a project -/

/-- Is an event about where the settings are, or about a document that has been loaded? -/
def IsAboutLoading (e : Log.Event) : Prop :=
  e.name = "project_root_from_env" ∨ e.name = "settings_loaded"

theorem isAboutLoading_of_mem_projectRootEvents {environment : Environment} {given : Option Path}
    {e : Log.Event} (h : e ∈ projectRootEvents environment given) : IsAboutLoading e := by
  unfold projectRootEvents at h
  split at h
  · obtain rfl := List.mem_singleton.mp h
    exact Or.inl rfl
  · cases h

theorem isAboutLoading_of_mem_loadEvents {path : Path} {document : Document} {e : Log.Event}
    (h : e ∈ loadEvents path (some document)) : IsAboutLoading e := by
  obtain ⟨label, entries⟩ := document
  cases label with
  | none => cases h
  | some label =>
    obtain rfl := List.mem_singleton.mp h
    exact Or.inr rfl

/-- Do events say that the loading of settings began and then that it failed with a fault, and
nowhere that it succeeded? -/
def ReportsFault (fault : DocumentFault) (events : List Log.Event) : Prop :=
  ∃ before started between failed, events = before ++ [started] ++ between ++ [failed] ∧
    started.name = "resolve_settings.started" ∧ failed.name = "resolve_settings.failed" ∧
    failed.fields.lookup "error" = some (.text fault.message) ∧
    failed.fields.lookup "error_type" = some (.text fault.kindName) ∧
    ∀ e ∈ events, e.name ≠ "resolve_settings.completed"

/-- What has been found and loaded does not say that everything is. -/
theorem name_ne_completed {e : Log.Event} (h : IsAboutLoading e) :
    e.name ≠ "resolve_settings.completed" := by
  rcases h with hname | hname
  · rw [hname]
    decide
  · rw [hname]
    decide

theorem ReportsFault.append_left {fault : DocumentFault} {first events : List Log.Event}
    (h : ReportsFault fault events) (hfirst : ∀ e ∈ first, IsAboutLoading e) :
    ReportsFault fault (first ++ events) := by
  obtain ⟨before, started, between, failed, rfl, hstarted, hfailed, herror, hkind, hnone⟩ := h
  refine ⟨first ++ before, started, between, failed, ?_, hstarted, hfailed, herror, hkind, ?_⟩
  · simp only [List.append_assoc]
  · intro e he
    rcases List.mem_append.mp he with he | he
    · exact name_ne_completed (hfirst e he)
    · exact hnone e he

theorem reportsFault_of_isAboutLoading {root : Path} {fault : DocumentFault}
    {before between : List Log.Event} {elapsed : Binary64}
    (h : ∀ e ∈ before ++ between, IsAboutLoading e) :
    ReportsFault fault (before ++ [openingEvent "resolve_settings" (loadingFields root)] ++
      (between ++ [closingEvent "resolve_settings" (loadingFields root) elapsed
        (some (.document fault))])) := by
  refine ⟨before, _, between, _, (List.append_assoc ..).symm, rfl, rfl, rfl, rfl, ?_⟩
  have hstarted : "resolve_settings.started" ≠ "resolve_settings.completed" := by decide
  have hfailed : "resolve_settings.failed" ≠ "resolve_settings.completed" := by decide
  intro e he
  simp only [List.mem_append, List.mem_singleton] at he
  rcases he with (he | rfl) | (he | rfl)
  · exact name_ne_completed (h e (List.mem_append_left between he))
  · exact hstarted
  · exact name_ne_completed (h e (List.mem_append_right before he))
  · exact hfailed

section Around

variable (s : Session) (es : List Log.Event) (clock : List Binary64) (pending : Bool)
  (e : Log.Event)

/-- The session after events, a reading of the clock, and one event more. -/
def notedAround : Session :=
  ({ s.notedAll es with clock, interruptPending := pending } : Session).noted e

theorem onlyLogs_notedAround : OnlyLogs s (s.notedAround es clock pending e) := by
  have hR := bookkeeping_onlyLogs .nobody
  have hread := hR.trans (hR.clock (s.notedAll es) clock)
    (hR.interruption { s.notedAll es with clock } pending)
  exact hR.trans (hR.trans (onlyLogs_notedAll s es) hread) (onlyLogs_noted _ e)

theorem notes_notedAround : Notes s (s.notedAround es clock pending e) (es ++ [e]) := by
  have hread : Notes (s.notedAll es)
      { s.notedAll es with clock, interruptPending := pending } [] :=
    notes_nil (traces_nil rfl rfl rfl rfl) rfl rfl
  have hall := ((notes_notedAll s es).trans hread).trans (notes_noted _ e)
  rwa [List.append_nil] at hall

theorem interruptPending_notedAround :
    (s.notedAround es clock pending e).interruptPending = pending :=
  interruptPending_notedAll _ [e]

end Around

/-- **Loading settings that fails reports that it began and then that it failed, with the
fault.** -/
theorem perform_loadSettings_of_failsToLoad {given : Option Path} {s : Session} {root : Path}
    {fault : DocumentFault} (hroot : Settings.projectRoot s.environment given = .ok root)
    (h : FailsToLoad s root fault) (hlog : s.AvoidsSettings s.IsLogPlace root)
    (audience : Audience) :
    ∃ events t, (loadSettings given audience).perform s = (.error (.document fault), t) ∧
      OnlyLogs s t ∧ ReportsFault fault events ∧ Notes s t events := by
  let looked := projectRootEvents s.environment given
  have hnames : takenField [("root", Value.text root.toText)] = none := rfl
  obtain ⟨clock, hoperation⟩ := perform_operationOn hnames [] "resolve_settings"
    (fun _ => resolveProject given expectedKeys audience) (s.notedAll looked)
  let opened := s.notedAround looked clock (s.notedAll looked).interruptPending
    (openingEvent "resolve_settings" (loadingFields root))
  have hopened : OnlyLogs s opened := onlyLogs_notedAround ..
  have hpending : opened.interruptPending = s.interruptPending :=
    (interruptPending_notedAround ..).trans (interruptPending_notedAll s looked)
  -- the documents are read after the project root has been looked for twice more
  let start := opened.notedAll (looked ++ looked)
  have hstart : OnlyLogs s start :=
    isChained_onlyLogs.trans hopened (onlyLogs_notedAll _ _)
  have hfails : FailsToLoad start root fault := h.of_sameBut hstart.files hstart.environment
    ((interruptPending_notedAll opened _).trans hpending) hlog
  have hlogs := hlog.of_sameBut hstart.files hstart.environment
    fun place h => (hstart.isLogPlace_iff place).mp h
  obtain ⟨events, pending, hevents, hresolve⟩ :=
    perform_resolve_of_failsToLoad hfails hlogs expectedKeys audience
  have hproject : (resolveProject given expectedKeys audience).perform opened = _ :=
    perform_resolveProject (hopened.environment ▸ hroot) expectedKeys audience
  rw [hopened.environment, hresolve, ← notedAll_append] at hproject
  obtain ⟨clock', elapsed, hrun⟩ := hoperation (.error (.document fault)) _ hproject
  let between := looked ++ looked ++ events
  let closed := opened.notedAround between clock' pending
    (closingEvent "resolve_settings" (loadingFields root) elapsed (some (.document fault)))
  have hnotes : Notes s closed _ := (notes_notedAround ..).trans (notes_notedAround ..)
  refine ⟨_, closed, ?_, ?_, reportsFault_of_isAboutLoading ?_, hnotes⟩
  · rw [loadSettings, perform_bind_ok (perform_projectRoot_ok hroot)]
    exact hrun
  · exact isChained_onlyLogs.trans hopened (onlyLogs_notedAround ..)
  · have hlooked : ∀ e ∈ looked, IsAboutLoading e :=
      fun e he => isAboutLoading_of_mem_projectRootEvents he
    have hloaded : ∀ e ∈ events, IsAboutLoading e := by
      rcases hevents with rfl | ⟨document, rfl⟩
      · nofun
      · exact fun e he => isAboutLoading_of_mem_loadEvents he
    intro e he
    simp only [between, List.mem_append] at he
    rcases he with he | (he | he) | he
    · exact hlooked e he
    · exact hlooked e he
    · exact hlooked e he
    · exact hloaded e he

end Session
end DevMachines
