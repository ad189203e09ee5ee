import DevMachines.Proofs.Files.Frames
import DevMachines.Proofs.Session.Declaring
import DevMachines.Proofs.Session.Loading

/-!
# What an activity keeps

An activity is a row of steps, and each step changes a session in a way that is known.  What all its
steps keep, the activity keeps, whether it comes to a result or fails on the way: `Activity.Keeps`
says this of a relation between the session before and the session after, and there is one lemma for
each way to put activities together.

Loading settings and declaring profiles only do the book-keeping of a session: they report events,
tell something, read the clock, and take an interruption.  So they keep every relation that these
four keep (`Bookkeeping`), and what a single relation needs is shown once for each of the four.

`OnlyLogs` is such a relation: files change only at the place that log records go to.
-/

namespace DevMachines

namespace Activity

variable {α β ε : Type} {R : Session → Session → Prop}

/-- Does an activity, however it ends, lead to a session that is related to the one before? -/
def Keeps (R : Session → Session → Prop) (a : Activity α) : Prop := ∀ s, R s (a.perform s).2

/-- A relation that holds of no change, and of two changes one after the other. -/
structure IsChained (R : Session → Session → Prop) : Prop where
  refl : ∀ s, R s s
  trans : ∀ {s t u}, R s t → R t u → R s u

section Keeps

variable (hR : IsChained R)

include hR

theorem keeps_pure (x : α) : Keeps R (pure x : Activity α) := hR.refl

theorem keeps_throw (failure : Failure) : Keeps R (throw failure : Activity α) := hR.refl

theorem keeps_orFail (failure : ε → Failure) (x : Except ε α) :
    Keeps R (Session.orFail failure x) := by
  cases x <;> exact hR.refl

/-- What is kept by one performance of an activity, and by what comes after it, is kept by both. -/
theorem rel_perform_bind {a : Activity α} {f : α → Activity β} {s : Session}
    (ha : R s (a.perform s).2) (hf : ∀ x, Keeps R (f x)) : R s ((a >>= f).perform s).2 := by
  rw [perform_bind]
  generalize a.perform s = run at ha
  obtain ⟨result, t⟩ := run
  cases result with
  | error failure => exact ha
  | ok x => exact hR.trans ha (hf x t)

theorem Keeps.bind {a : Activity α} {f : α → Activity β} (ha : Keeps R a)
    (hf : ∀ x, Keeps R (f x)) : Keeps R (a >>= f) :=
  fun s => rel_perform_bind hR (ha s) hf

end Keeps

/-- What is done with the session that is got starts from that session. -/
theorem keeps_get_bind {f : Session → Activity β} (hf : ∀ s, R s ((f s).perform s).2) :
    Keeps R (get >>= f) := by
  intro s
  rw [perform_bind_ok (perform_get s)]
  exact hf s

theorem keeps_ite {c : Prop} [Decidable c] {a b : Activity α} (ha : Keeps R a) (hb : Keeps R b) :
    Keeps R (if c then a else b) := by
  split
  · exact ha
  · exact hb

theorem keeps_modify {f : Session → Session} (hf : ∀ s, R s (f s)) :
    Keeps R (modify f : Activity Unit) :=
  hf

theorem Keeps.attempt {a : Activity α} (ha : Keeps R a) : Keeps R (Session.attempt a) := by
  intro s
  rw [perform_attempt]
  exact ha s

end Activity

namespace Session

open Activity Settings

/-! ## The events that are reported -/

/-- The event that opens an operation. -/
def openingEvent (name : String) (fields : Log.Fields) : Log.Event :=
  ⟨.info, name ++ ".started", fields⟩

/-- The fields that the events of an operation carry. -/
def operationFields (name : String) (context : Log.Fields) : Log.Fields :=
  Log.Fields.setAll [("operation", .text name)] context

/-- The fields of the events around the loading of settings. -/
def loadingFields (root : Path) : Log.Fields :=
  operationFields "resolve_settings" [("root", .text root.toText)]

/-- The events that loading settings and declaring profiles report, by what they report. -/
inductive IsReported : Log.Event → Prop
  | root {environment : Environment} {given : Option Path} {e : Log.Event}
      (h : e ∈ projectRootEvents environment given) : IsReported e
  | loading {path : Path} {result : Option Document} {e : Log.Event}
      (h : e ∈ loadEvents path result) : IsReported e
  | missingKey (key : String) (sources : List Path) : IsReported (missingKeyEvent key sources)
  | opening (root : Path) : IsReported (openingEvent "resolve_settings" (loadingFields root))
  | closing (root : Path) (elapsed : Binary64) (failure : Option Failure) :
      IsReported (closingEvent "resolve_settings" (loadingFields root) elapsed failure)
  | workspace (w : Workspace) : IsReported w.event

/-! ## Book-keeping -/

/-- A relation that holds of everything that loading and declaring do to a session. -/
structure Bookkeeping (R : Session → Session → Prop) (audience : Audience) : Prop
    extends IsChained R where
  noted : ∀ s e, IsReported e → R s (s.noted e)
  told : ∀ s message, R s (s.told audience message)
  clock : ∀ s clock, R s { s with clock := clock }
  interruption : ∀ s pending, R s { s with interruptPending := pending }

section Bookkeeping

variable {α : Type} {R : Session → Session → Prop} {audience : Audience}
  (hR : Bookkeeping R audience)

include hR

theorem Bookkeeping.notedAll {es : List Log.Event} (h : ∀ e ∈ es, IsReported e) (s : Session) :
    R s (s.notedAll es) := by
  induction es generalizing s with
  | nil => exact hR.refl s
  | cons e es ih =>
    rw [List.forall_mem_cons] at h
    exact hR.trans (hR.noted s e h.1) (ih h.2 _)

theorem keeps_emit {e : Log.Event} (h : IsReported e) : Keeps R (emit e) := by
  intro s
  rw [perform_emit]
  exact hR.noted s e h

theorem keeps_emitAll {es : List Log.Event} (h : ∀ e ∈ es, IsReported e) :
    Keeps R (emitAll es) := by
  intro s
  rw [perform_emitAll]
  exact hR.notedAll h s

theorem keeps_tell (message : String) : Keeps R (tell audience message) := by
  intro s
  rw [perform_tell]
  exact hR.told s message

theorem keeps_readClock : Keeps R readClock := by
  refine keeps_get_bind fun s => ?_
  split
  · exact hR.refl s
  · exact hR.refl s
  · exact hR.clock s _

theorem keeps_loadDocument (number : Nat) (path : Path) (isRequired : Bool) :
    Keeps R (loadDocument number path isRequired) := by
  intro s
  have hend := loadEnd_loadDocument number path isRequired s
  generalize (loadDocument number path isRequired).perform s = run at hend
  cases hend with
  | failed failure pending hfault => exact hR.interruption s pending
  | absent hthere hrequired => exact hR.notedAll (fun _ => .loading) s
  | found document hthere hkeys => exact hR.notedAll (fun _ => .loading) s

theorem keeps_reportMissing (settings : MergedSettings) (expected : List String) :
    Keeps R (reportMissing audience settings expected) := by
  induction expected with
  | nil => exact keeps_pure hR.toIsChained ()
  | cons key expected ih =>
    rw [reportMissing]
    refine keeps_ite ?_ ih
    exact (keeps_emit hR (.missingKey key settings.sources)).bind hR.toIsChained fun _ =>
      (keeps_tell hR _).bind hR.toIsChained fun _ => ih

theorem keeps_resolve (defaultsPath overridesPath : Path) (expected : List String) :
    Keeps R (resolve defaultsPath overridesPath expected audience) :=
  (keeps_loadDocument hR 0 defaultsPath true).bind hR.toIsChained fun _ =>
    (keeps_loadDocument hR 1 overridesPath false).bind hR.toIsChained fun _ =>
      (keeps_reportMissing hR _ expected).bind hR.toIsChained fun _ => keeps_pure hR.toIsChained _

theorem keeps_projectRoot (given : Option Path) : Keeps R (projectRoot given) := by
  refine keeps_get_bind fun s => ?_
  exact ((keeps_emitAll hR fun _ => .root).bind hR.toIsChained fun _ =>
    keeps_orFail hR.toIsChained _ _) s

theorem keeps_defaultsPath (given : Option Path) : Keeps R (defaultsPath given) :=
  (keeps_projectRoot hR given).bind hR.toIsChained fun _ => keeps_pure hR.toIsChained _

theorem keeps_overridesPath (given : Option Path) : Keeps R (overridesPath given) :=
  (keeps_projectRoot hR given).bind hR.toIsChained fun _ => keeps_pure hR.toIsChained _

theorem keeps_resolveProject (given : Option Path) (expected : List String) :
    Keeps R (resolveProject given expected audience) :=
  (keeps_defaultsPath hR given).bind hR.toIsChained fun _ =>
    (keeps_overridesPath hR given).bind hR.toIsChained fun _ => keeps_resolve hR _ _ expected

theorem keeps_closeOperation {name : String} {fields : Log.Fields} {failure : Option Failure}
    (h : ∀ elapsed, IsReported (closingEvent name fields elapsed failure)) (start : Binary64) :
    Keeps R (closeOperation name fields start failure) :=
  (keeps_readClock hR).bind hR.toIsChained fun _ => keeps_emit hR (h _)

theorem keeps_operation {name : String} {context : Log.Fields} {body : Log.Fields → Activity α}
    (hopening : IsReported (openingEvent name (operationFields name context)))
    (hclosing : ∀ elapsed failure,
      IsReported (closingEvent name (operationFields name context) elapsed failure))
    (hbody : ∀ fields, Keeps R (body fields)) : Keeps R (operation name context body) := by
  rw [operation, operationOn]
  split
  · exact keeps_throw hR.toIsChained _
  · refine (keeps_readClock hR).bind hR.toIsChained fun start => ?_
    refine (keeps_emit hR hopening).bind hR.toIsChained fun _ => ?_
    refine ((hbody _).attempt).bind hR.toIsChained fun result => ?_
    cases result with
    | ok x =>
      exact (keeps_closeOperation hR (hclosing · none) start).bind hR.toIsChained fun _ =>
        keeps_pure hR.toIsChained x
    | error failure =>
      refine keeps_ite ?_ (keeps_throw hR.toIsChained failure)
      exact (keeps_closeOperation hR (hclosing · (some failure)) start).bind hR.toIsChained
        fun _ => keeps_throw hR.toIsChained failure

theorem keeps_loadSettings (given : Option Path) : Keeps R (loadSettings given audience) :=
  (keeps_projectRoot hR given).bind hR.toIsChained fun root =>
    keeps_operation hR (.opening root) (.closing root) fun _ =>
      keeps_resolveProject hR given expectedKeys

theorem keeps_declareFrom (settings : MergedSettings) :
    Keeps R (declareFrom settings audience) := by
  intro s
  rw [declareFrom, perform_declareProfiles]
  cases (Workspace.ofSetting (settings.get? workspaceKey)).folders s.environment.home with
  | error rejection => exact hR.refl s
  | ok folders =>
    have hnoted := hR.noted s _ (.workspace (Workspace.ofSetting (settings.get? workspaceKey)))
    show R s (s.declared audience (Workspace.ofSetting (settings.get? workspaceKey)))
    rw [declared]
    split
    · exact hR.trans hnoted (hR.told _ _)
    · exact hnoted

end Bookkeeping

/-! ## Standard output -/

/-- Book-keeping for another audience prints nothing on standard output. -/
theorem bookkeeping_output {audience : Audience} (h : audience ≠ .output) :
    Bookkeeping (fun s t => t.output = s.output) audience where
  refl _ := rfl
  trans hst htu := htu.trans hst
  noted s e _ := output_noted s e
  told s message := by
    cases audience with
    | output => exact absurd rfl h
    | nobody | caller | errors => rfl
  clock _ _ := rfl
  interruption _ _ := rfl

/-! ## The file that gets the log -/

/-- Do log records go to a place? -/
def IsLogPlace (s : Session) (place : Place) : Prop :=
  ∃ sinks file, s.reporting.sinks = some sinks ∧ sinks.file = some file ∧
    s.files.destination s.environment.workingDirectory file = .ok place

/-- Between two sessions, files change only where log records go, and none is removed. -/
structure OnlyLogs (s t : Session) : Prop where
  environment : t.environment = s.environment
  sinks : t.reporting.sinks = s.reporting.sinks
  files : s.files.SameBut s.IsLogPlace t.files
  present : ∀ place, (s.files.get? place).isSome → (t.files.get? place).isSome

theorem onlyLogs_of_files_eq {s t : Session} (henvironment : t.environment = s.environment)
    (hsinks : t.reporting.sinks = s.reporting.sinks) (hfiles : t.files = s.files) :
    OnlyLogs s t :=
  ⟨henvironment, hsinks, hfiles ▸ .refl _ _, fun _ h => hfiles ▸ h⟩

/-- Where log records go stays the same. -/
theorem OnlyLogs.isLogPlace_iff {s t : Session} (h : OnlyLogs s t) (place : Place) :
    t.IsLogPlace place ↔ s.IsLogPlace place := by
  simp only [IsLogPlace, h.environment, h.sinks, h.files.destination_eq_ok_iff]

theorem isChained_onlyLogs : IsChained OnlyLogs where
  refl _ := onlyLogs_of_files_eq rfl rfl rfl
  trans hst htu :=
    ⟨htu.environment.trans hst.environment, htu.sinks.trans hst.sinks,
      hst.files.trans (htu.files.mono fun place h => (hst.isLogPlace_iff place).mp h),
      fun place h => htu.present place (hst.present place h)⟩

/-- A record that is written to a file changes the place of that file. -/
theorem onlyLogs_writeToFile {s : Session} {sinks : Log.Sinks} {file : Path}
    (hsinks : s.reporting.sinks = some sinks) (hfile : sinks.file = some file)
    (record : Log.Fields) : OnlyLogs s (writeToFile file record s) := by
  rw [writeToFile]
  split
  · split
    · next files happend =>
      obtain ⟨place, hplace, hdirectory, rfl⟩ := FileTree.append_eq_ok_iff.mp happend
      refine ⟨rfl, rfl, (FileTree.sameBut_set hdirectory _).mono ?_, fun _ h =>
        FileTree.isSome_get?_set h _⟩
      rintro _ rfl
      exact ⟨sinks, file, hsinks, hfile, hplace⟩
    · exact isChained_onlyLogs.refl s
  · exact isChained_onlyLogs.refl s

/-- **A record is written to the file that gets the log, and to no other.** -/
theorem onlyLogs_deliver (rank : Nat) (record : Log.Fields) (s : Session) :
    OnlyLogs s (deliver rank record s) := by
  have herrors : ∀ form, OnlyLogs s (writeOnErrors form record s) := by
    intro form
    rw [writeOnErrors]
    split
    · exact onlyLogs_of_files_eq rfl rfl rfl
    · exact isChained_onlyLogs.refl s
  rw [deliver]
  split
  · exact isChained_onlyLogs.refl s
  · split
    · exact isChained_onlyLogs.refl s
    · next sinks hsinks =>
      have hwritten := herrors sinks.form
      dsimp only
      split
      · next file hfile =>
        exact isChained_onlyLogs.trans hwritten
          (onlyLogs_writeToFile (hwritten.sinks.trans hsinks) hfile record)
      · exact hwritten

theorem onlyLogs_noted (s : Session) (e : Log.Event) : OnlyLogs s (s.noted e) := by
  rw [noted]
  split
  · exact onlyLogs_of_files_eq rfl rfl rfl
  · exact onlyLogs_deliver _ _ s

theorem onlyLogs_notedAll (s : Session) (es : List Log.Event) : OnlyLogs s (s.notedAll es) := by
  induction es generalizing s with
  | nil => exact isChained_onlyLogs.refl s
  | cons e es ih => exact isChained_onlyLogs.trans (onlyLogs_noted s e) (ih _)

/-- **Book-keeping changes files only where log records go.** -/
theorem bookkeeping_onlyLogs (audience : Audience) : Bookkeeping OnlyLogs audience where
  refl := isChained_onlyLogs.refl
  trans := isChained_onlyLogs.trans
  noted s e _ := onlyLogs_noted s e
  told s message := by
    cases audience <;> exact onlyLogs_of_files_eq rfl rfl rfl
  clock _ _ := onlyLogs_of_files_eq rfl rfl rfl
  interruption _ _ := onlyLogs_of_files_eq rfl rfl rfl

end Session
end DevMachines
