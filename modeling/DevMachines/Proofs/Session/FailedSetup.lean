import DevMachines.Proofs.Session.Journal

/-!
# A setup that fails

Setting the logging up is several steps, and each of them can fail: opening the file for the log,
looking the name of the threshold up, and taking what the name stands for as a threshold.  A failure
does not take the steps before it back.  So a setup that fails may have made an empty file for the
log; and if the name stands for something that is no threshold, the destinations have been replaced
before that is noticed.

`configure_failed` says what a failed setup can have changed at all, and exactly when it has changed
nothing (`FailsCleanly`).  As long as the destinations are the same, later records are written as if
the setup had not been tried.
-/

namespace DevMachines

/-! ## File systems with the same contents -/

namespace FileTree

variable {t t' u : FileTree} {here path : Path} {octets : Text.Octets}

/-- Have two file systems the same directories and the same octets everywhere?  An empty file may be
where there was nothing. -/
structure SameContents (t u : FileTree) : Prop where
  same : t.SameBut (fun _ => True) u
  contents : ∀ place, u.contentsAt place = t.contentsAt place

theorem SameContents.refl (t : FileTree) : SameContents t t := ⟨.refl _ _, fun _ => rfl⟩

theorem SameContents.symm (h : SameContents t u) : SameContents u t :=
  ⟨h.same.symm, fun place => (h.contents place).symm⟩

/-- Adding nothing to a file leaves the contents as they are. -/
theorem sameContents_append_nil (h : t.append here path [] = .ok u) : SameContents t u := by
  obtain ⟨place, -, hdirectory, rfl⟩ := append_eq_ok_iff.mp h
  refine ⟨(sameBut_set hdirectory _).mono fun _ _ => trivial, fun other => ?_⟩
  rw [contentsAt_set hdirectory, List.append_nil]
  split
  · next hother => rw [hother]
  · rfl

/-- What can be added to a file in one of them can be added in the other one. -/
theorem SameContents.append (h : SameContents t u) (happend : t.append here path octets = .ok t') :
    ∃ u', u.append here path octets = .ok u' ∧ SameContents t' u' := by
  obtain ⟨place, hplace, hdirectory, rfl⟩ := append_eq_ok_iff.mp happend
  have hother : u.get? place ≠ some .directory := fun hthere =>
    hdirectory ((h.same.directory_iff place).mp hthere)
  refine ⟨_, append_eq_ok_iff.mpr ⟨place, h.same.destination_eq_ok_iff.mpr hplace, hother, rfl⟩, ?_⟩
  have hleft := (sameBut_set hdirectory (t.contentsAt place ++ octets)).mono
    (q := fun _ => True) fun _ _ => trivial
  have hright := (sameBut_set hother (u.contentsAt place ++ octets)).mono
    (q := fun _ => True) fun _ _ => trivial
  refine ⟨hleft.symm.trans (h.same.trans hright), fun other => ?_⟩
  rw [contentsAt_set hother, contentsAt_set hdirectory, h.contents, h.contents]

theorem SameContents.append_error (h : SameContents t u) {fault : FileFault}
    (happend : t.append here path octets = .error fault) :
    ∃ other, u.append here path octets = .error other := by
  cases hother : u.append here path octets with
  | error other => exact ⟨other, rfl⟩
  | ok u' =>
    obtain ⟨t', ht', -⟩ := h.symm.append hother
    rw [happend] at ht'
    cases ht'

end FileTree

namespace Session

open Activity
open CommandLine (LogOptions logPath setUp openLogFile_cases openLogFiles_cases)

/-! ## Records from sessions that differ in empty files -/

/-- Do two sessions differ in nothing but empty files? -/
def DiffersInEmptyFiles (s t : Session) : Prop :=
  ∃ files, t = { s with files } ∧ s.files.SameContents files

section Records

variable {s t : Session}

theorem DiffersInEmptyFiles.writeToFile (h : DiffersInEmptyFiles s t) (file : Path)
    (record : Log.Fields) :
    DiffersInEmptyFiles (writeToFile file record s) (writeToFile file record t) := by
  obtain ⟨files, rfl, hfiles⟩ := h
  rw [Session.writeToFile, Session.writeToFile]
  cases Log.line .json record with
  | error fault => exact ⟨files, rfl, hfiles⟩
  | ok line =>
    dsimp only
    cases happend : s.files.append s.environment.workingDirectory file
        (Text.encode (line ++ "\n")) with
    | ok more =>
      obtain ⟨others, hothers, hmore⟩ := hfiles.append happend
      rw [hothers]
      exact ⟨others, rfl, hmore⟩
    | error fault =>
      obtain ⟨other, hother⟩ := hfiles.append_error happend
      rw [hother]
      exact ⟨files, rfl, hfiles⟩

theorem DiffersInEmptyFiles.deliver (h : DiffersInEmptyFiles s t) (rank : Nat)
    (record : Log.Fields) : DiffersInEmptyFiles (deliver rank record s) (deliver rank record t) := by
  have hreporting : t.reporting = s.reporting := by
    obtain ⟨files, rfl, -⟩ := h
    rfl
  rw [Session.deliver, Session.deliver, hreporting]
  split
  · exact h
  · split
    · exact h
    · next sinks hsinks =>
      have herrors : DiffersInEmptyFiles (writeOnErrors sinks.form record s)
          (writeOnErrors sinks.form record t) := by
        obtain ⟨files, rfl, hfiles⟩ := h
        rw [writeOnErrors, writeOnErrors]
        cases Log.line sinks.form record with
        | ok line => exact ⟨files, rfl, hfiles⟩
        | error fault => exact ⟨files, rfl, hfiles⟩
      dsimp only
      split
      · exact herrors.writeToFile _ record
      · exact herrors

/-- Do two activities come to the same, with sessions that differ in nothing but empty files? -/
def SameOutcome (first second : Except Failure Unit × Session) : Prop :=
  second.1 = first.1 ∧ DiffersInEmptyFiles first.2 second.2

/-- An event becomes the same record, and the record goes to the same places. -/
theorem DiffersInEmptyFiles.emitWith (h : DiffersInEmptyFiles s t) (args : List Value)
    (e : Log.Event) : SameOutcome ((emitWith args e).perform s) ((emitWith args e).perform t) := by
  have hdeliver := h.deliver e.severity.rank
  obtain ⟨files, rfl, hfiles⟩ := h
  rw [Session.emitWith, perform_bind_ok (perform_get _), perform_bind_ok (perform_get _)]
  by_cases hlistening : s.listening = true
  · rw [if_pos hlistening, if_pos hlistening]
    cases Log.heard e args with
    | error fault => exact ⟨rfl, files, rfl, hfiles⟩
    | ok e => exact ⟨rfl, files, rfl, hfiles⟩
  · rw [if_neg hlistening, if_neg hlistening]
    dsimp only
    cases Log.recordOf s.reporting.context s.time e args with
    | error fault => exact ⟨rfl, files, rfl, hfiles⟩
    | ok record => exact ⟨rfl, hdeliver record⟩

theorem DiffersInEmptyFiles.emitForeign (h : DiffersInEmptyFiles s t) (args : List Value)
    (e : Log.Event) :
    SameOutcome ((emitForeign args e).perform s) ((emitForeign args e).perform t) := by
  have hdeliver := h.deliver e.severity.rank
  obtain ⟨files, rfl, hfiles⟩ := h
  have hmodify : ∀ (f : Session → Session) (u : Session),
      (modify f : Activity Unit).perform u = (.ok (), f u) := fun _ _ => rfl
  rw [Session.emitForeign, hmodify, hmodify]
  refine ⟨rfl, ?_⟩
  dsimp only
  split
  · exact ⟨files, rfl, hfiles⟩
  · cases Log.recordOf s.reporting.context s.time e args with
    | error fault => exact ⟨files, rfl, hfiles⟩
    | ok record =>
      dsimp only
      split
      · exact ⟨files, rfl, hfiles⟩
      · exact hdeliver record

/-- A request that sets nothing up is met alike. -/
theorem DiffersInEmptyFiles.activity (h : DiffersInEmptyFiles s t) {r : LogRequest}
    (hr : ∀ options, r ≠ .configure options) :
    SameOutcome (r.activity.perform s) (r.activity.perform t) := by
  cases r with
  | configure options => exact absurd rfl (hr options)
  | bind command root =>
    obtain ⟨files, rfl, hfiles⟩ := h
    exact ⟨rfl, files, rfl, hfiles⟩
  | log e args => exact h.emitWith args e
  | logForeign severity name args => exact h.emitForeign args ⟨severity, name, []⟩

/-- **Empty files change nothing for later records.** -/
theorem DiffersInEmptyFiles.askAll (h : DiffersInEmptyFiles s t) {requests : List LogRequest}
    (hrequests : ∀ r ∈ requests, ∀ options, r ≠ .configure options) :
    SameOutcome ((askAll requests).perform s) ((askAll requests).perform t) := by
  induction requests generalizing s t with
  | nil => exact ⟨rfl, h⟩
  | cons r requests ih =>
    rw [List.forall_mem_cons] at hrequests
    obtain ⟨hresult, hafter⟩ := h.activity hrequests.1
    rw [Session.askAll, perform_bind, perform_bind]
    generalize r.activity.perform s = first at hresult hafter
    generalize r.activity.perform t = second at hresult hafter
    obtain ⟨result, s'⟩ := first
    obtain ⟨_, t'⟩ := second
    obtain rfl : result = _ := hresult.symm
    cases result with
    | error failure => exact ⟨rfl, hafter⟩
    | ok done => exact ih hafter hrequests.2

end Records

/-! ## What opening the file for the log leaves -/

section Opening

variable {options : LogOptions} {s t : Session} {files : FileTree}

/-- A file for the log that is opened can be opened. -/
theorem opens_of_perform {path : Option Path}
    (h : (options.file.mapM openLogFile).perform s = (.ok path, t)) : options.Opens s := by
  intro file hfile
  have hrun : (options.file.mapM openLogFile).perform s = (some <$> openLogFile file).perform s := by
    rw [hfile]
    rfl
  rw [hrun, map_eq_pure_bind] at h
  rcases openLogFile_cases file s with ⟨-, failure, herror⟩ | ⟨files, hok, hopened⟩
  · rw [perform_bind_error herror] at h
    cases congrArg Prod.fst h
  · refine ⟨?_, files, hopened⟩
    by_contra hnul
    rw [openLogFile, if_pos (by simpa using hnul)] at hok
    cases congrArg Prod.fst hok

/-- Where there was something, it is still there; else there is an empty file at most. -/
theorem get?_of_hasOpened (h : options.HasOpened s files) (place : Place) :
    files.get? place = s.files.get? place ∨
      options.LeadsTo s place ∧ s.files.get? place = none ∧ files.get? place = some (.file []) := by
  unfold LogOptions.HasOpened at h
  split at h
  · exact Or.inl (by rw [h])
  · next file hfile =>
    obtain ⟨opened, hopened, hdirectory, rfl⟩ := FileTree.append_eq_ok_iff.mp h
    have hroot : opened ≠ [] := by
      rintro rfl
      exact hdirectory rfl
    by_cases hplace : place = opened
    · subst hplace
      rw [FileTree.get?_set_self hroot, List.append_nil, FileTree.contentsAt]
      cases hbefore : s.files.get? place with
      | none => exact Or.inr ⟨⟨file, hfile, hopened⟩, rfl, rfl⟩
      | some entry =>
        cases entry with
        | directory => exact absurd hbefore hdirectory
        | file octets => exact Or.inl rfl
    · exact Or.inl (FileTree.get?_set_of_ne hplace _)

theorem sameContents_of_hasOpened (h : options.HasOpened s files) :
    s.files.SameContents files := by
  unfold LogOptions.HasOpened at h
  split at h
  · rw [h]
    exact .refl _
  · exact FileTree.sameContents_append_nil h

/-- Opening changes no file just when there is one already. -/
theorem get?_eq_iff_of_hasOpened (h : options.HasOpened s files) :
    (∀ place, files.get? place = s.files.get? place) ↔
      ∀ place, options.LeadsTo s place → (s.files.get? place).isSome := by
  constructor
  · intro hsame place hplace
    rw [← hsame]
    exact h.isSome hplace
  · intro hthere place
    rcases get?_of_hasOpened h place with hsame | ⟨hplace, hnone, -⟩
    · exact hsame
    · have hsome := hthere place hplace
      rw [hnone] at hsome
      cases hsome

end Opening

/-! ## How a setup fails -/

section Failed

variable {options : LogOptions} {s t : Session} {failure : Failure}

/-- How a setup can fail, by the session that it leaves. -/
inductive FailedSetup (options : LogOptions) (s : Session) : Session → Prop
  /-- The file for the log cannot be opened, and nothing is touched. -/
  | atFile (hopens : ¬ options.Opens s) : FailedSetup options s s
  /-- The file is open.  A name that stands for something has replaced the destinations before it
  turns out to be no threshold. -/
  | atLevel (fault : Log.LevelFault) (files : FileTree) (hopens : options.Opens s)
      (hopened : options.HasOpened s files) (hlevel : Log.rankOfName options.level = .error fault) :
      FailedSetup options s { s with
        files
        reporting := { s.reporting with
          sinks := if fault.isLate then some (options.sinks s) else s.reporting.sinks } }

/-- A name that is no threshold fails the setup when the file for the log is open. -/
theorem perform_configure_of_fault {files : FileTree} {fault : Log.LevelFault}
    (hok : (options.file.mapM openLogFile).perform s =
      (.ok (options.file.map (logPath s)), { s with files }))
    (hlevel : Log.rankOfName options.level = .error fault) :
    (LogRequest.configure options).activity.perform s = (.error (.level fault), { s with
      files
      reporting := { s.reporting with
        sinks := if fault.isLate then some (options.sinks s) else s.reporting.sinks } }) := by
  rw [LogRequest.activity, configure, perform_bind_ok hok, hlevel]
  dsimp only
  cases fault.isLate with
  | true => rfl
  | false => rfl

theorem failedSetup_of_configure
    (h : (LogRequest.configure options).activity.perform s = (.error failure, t)) :
    FailedSetup options s t := by
  rcases openLogFiles_cases options s with ⟨hcannot, failure', herror⟩ | ⟨files, hok, hopened⟩
  · rw [LogRequest.activity, configure, perform_bind_error herror] at h
    obtain rfl := congrArg Prod.snd h
    exact .atFile hcannot
  · cases hlevel : Log.rankOfName options.level with
    | ok threshold =>
      rw [LogRequest.activity, configure, perform_bind_ok hok, hlevel] at h
      cases congrArg Prod.fst h
    | error fault =>
      rw [perform_configure_of_fault hok hlevel] at h
      obtain rfl := congrArg Prod.snd h
      exact .atLevel fault files (opens_of_perform hok) hopened hlevel

/-- If a setup fails, is everything as it was?  If the file for the log can be opened, it has to be
there already, and a name that stands for something has to come with the destinations that records go
to anyway. -/
def FailsCleanly (s : Session) (options : LogOptions) : Prop :=
  options.Opens s →
    (∀ place, options.LeadsTo s place → (s.files.get? place).isSome) ∧
    ∀ fault, Log.rankOfName options.level = .error fault → fault.isLate = true →
      s.reporting.sinks = some (options.sinks s)

/-- With the file for the log open, failing cleanly is about the one fault of the threshold. -/
theorem failsCleanly_iff_of_fault {fault : Log.LevelFault} (hopens : options.Opens s)
    (hlevel : Log.rankOfName options.level = .error fault) : s.FailsCleanly options ↔
      (∀ place, options.LeadsTo s place → (s.files.get? place).isSome) ∧
        (fault.isLate = true → s.reporting.sinks = some (options.sinks s)) := by
  unfold FailsCleanly
  rw [hlevel, forall_prop_of_true hopens]
  refine and_congr_right fun _ => ?_
  constructor
  · intro hall
    exact hall fault rfl
  · rintro hfault other ⟨⟩
    exact hfault

/-- A fault leaves the destinations alone if it is not late, or if they are the same again. -/
theorem reporting_eq_iff_of_fault (fault : Log.LevelFault) : { s.reporting with
      sinks := if fault.isLate then some (options.sinks s) else s.reporting.sinks } =
    s.reporting ↔ (fault.isLate = true → s.reporting.sinks = some (options.sinks s)) := by
  rw [Log.Setup.mk.injEq]
  by_cases hlate : fault.isLate = true
  · simp [hlate, eq_comm]
  · simp [hlate]

/-- **What a failed setup changes.**  Nothing but the destinations of records, and files at most by a
new empty one where the log was to go.  As long as the destinations are the same, later records have
the same outcome as without the setup; and everything is the same just when the setup fails
cleanly. -/
theorem configure_failed
    (h : (LogRequest.configure options).activity.perform s = (.error failure, t)) :
    (∃ files sinks, t = { s with files, reporting := { s.reporting with sinks } }) ∧
    (∀ place, t.files.get? place = s.files.get? place ∨
      options.LeadsTo s place ∧ s.files.get? place = none ∧
        t.files.get? place = some (.file [])) ∧
    (t.reporting = s.reporting → ∀ requests : List LogRequest,
      (∀ r ∈ requests, ∀ others, r ≠ .configure others) →
        SameOutcome ((askAll requests).perform s) ((askAll requests).perform t)) ∧
    ((t.reporting = s.reporting ∧ ∀ place, t.files.get? place = s.files.get? place) ↔
      s.FailsCleanly options) := by
  cases failedSetup_of_configure h with
  | atFile hopens =>
    refine ⟨⟨s.files, s.reporting.sinks, rfl⟩, fun place => Or.inl rfl, ?_, ?_⟩
    · intro _ requests hrequests
      exact DiffersInEmptyFiles.askAll ⟨s.files, rfl, .refl _⟩ hrequests
    · exact ⟨fun _ hthere => absurd hthere hopens, fun _ => ⟨rfl, fun _ => rfl⟩⟩
  | atLevel fault files hopens hopened hlevel =>
    refine ⟨⟨files, _, rfl⟩, get?_of_hasOpened hopened, ?_, ?_⟩
    · intro hreporting requests hrequests
      refine DiffersInEmptyFiles.askAll ⟨files, ?_, sameContents_of_hasOpened hopened⟩ hrequests
      exact congrArg (fun reporting => { s with files, reporting }) hreporting
    · rw [failsCleanly_iff_of_fault hopens hlevel, ← get?_eq_iff_of_hasOpened hopened, and_comm]
      exact and_congr_right fun _ => reporting_eq_iff_of_fault fault

end Failed

/-- A session in which nothing has been set up. -/
def silentSession : Session where
  environment := { home := "/home/tester", configuredRoot := none, workingDirectory := ⟨1, []⟩ }
  time := "2000-01-01T00:00:00.000000Z"

/-- A setup with JSON on standard error and in a file. -/
def firstSetup : LogOptions where
  level := "info"
  json := true
  file := some ⟨0, ["run.log"]⟩

/-- The session after the first setup. -/
def startedSession : Session := setUp firstSetup 20 ⟨[(["run.log"], .file [])]⟩ silentSession

theorem perform_firstSetup :
    (LogRequest.configure firstSetup).activity.perform silentSession = (.ok (), startedSession) := by
  have hok : (firstSetup.file.mapM openLogFile).perform silentSession =
      (.ok (some ⟨1, ["run.log"]⟩),
        { silentSession with files := ⟨[(["run.log"], .file [])]⟩ }) := rfl
  have hlevel : Log.rankOfName firstSetup.level = .ok 20 := by decide +kernel
  rw [LogRequest.activity, configure, perform_bind_ok hok, hlevel]
  rfl

/-- A name that stands for a table, with the destinations that records go to already. -/
def lateSetup : LogOptions := { firstSetup with level := "_styles" }

theorem configure_failed_sameDestinations :
    (LogRequest.configure firstSetup).activity.perform silentSession = (.ok (), startedSession) ∧
      ∃ t, (LogRequest.configure lateSetup).activity.perform startedSession =
          (.error (.level .standsForTable), t) ∧
        t.reporting = startedSession.reporting ∧
        (∀ place, t.files.get? place = startedSession.files.get? place) ∧
        ∀ requests : List LogRequest, (∀ r ∈ requests, ∀ others, r ≠ .configure others) →
          SameOutcome ((askAll requests).perform startedSession) ((askAll requests).perform t) := by
  have hok : (lateSetup.file.mapM openLogFile).perform startedSession =
      (.ok (lateSetup.file.map (logPath startedSession)), startedSession) := rfl
  have hlevel : Log.rankOfName lateSetup.level = .error .standsForTable := by decide +kernel
  have hrun := perform_configure_of_fault hok hlevel
  have hclean : startedSession.FailsCleanly lateSetup := by
    intro _
    constructor
    · rintro place ⟨file, hfile, hplace⟩
      obtain rfl : ⟨0, ["run.log"]⟩ = file := Option.some.inj hfile
      obtain rfl : ["run.log"] = place := Except.ok.inj hplace
      rfl
    · intro _ _ _
      rfl
  obtain ⟨-, -, hlater, hiff⟩ := configure_failed hrun
  obtain ⟨hreporting, hfiles⟩ := hiff.mpr hclean
  exact ⟨perform_firstSetup, _, hrun, hreporting, hfiles, hlater hreporting⟩

/-- A name that stands for a text. -/
def textSetup : LogOptions := { level := "BASIC_FORMAT" }

/-- A name that stands for nothing, and a file that is not there. -/
def unknownSetup : LogOptions := { level := "loud", file := some ⟨0, ["other.log"]⟩ }

/-- A setup that fails can have changed where records go, or have made a file. -/
theorem configure_leavesTraces :
    (LogRequest.configure firstSetup).activity.perform silentSession = (.ok (), startedSession) ∧
      (∃ t, (LogRequest.configure textSetup).activity.perform startedSession =
          (.error (.level .standsForText), t) ∧
        startedSession.reporting.sinks = some ⟨.json, some ⟨1, ["run.log"]⟩⟩ ∧
        t.reporting.sinks = some ⟨.readable false, none⟩) ∧
      ∃ t, (LogRequest.configure unknownSetup).activity.perform startedSession =
          (.error (.level (.noSuchName "LOUD")), t) ∧
        startedSession.files.get? ["other.log"] = none ∧
        t.files.get? ["other.log"] = some (.file []) := by
  refine ⟨perform_firstSetup, ?_, ?_⟩
  · have hok : (textSetup.file.mapM openLogFile).perform startedSession =
        (.ok (textSetup.file.map (logPath startedSession)), startedSession) := rfl
    have hlevel : Log.rankOfName textSetup.level = .error .standsForText := by decide +kernel
    exact ⟨_, perform_configure_of_fault hok hlevel, rfl, rfl⟩
  · have hok : (unknownSetup.file.mapM openLogFile).perform startedSession =
        (.ok (unknownSetup.file.map (logPath startedSession)),
          { startedSession with
            files := ⟨[(["run.log"], .file []), (["other.log"], .file [])]⟩ }) := rfl
    have hlevel : Log.rankOfName unknownSetup.level = .error (.noSuchName "LOUD") := by
      decide +kernel
    exact ⟨_, perform_configure_of_fault hok hlevel, rfl, rfl⟩

end Session
end DevMachines
