import DevMachines.Proofs.CommandLine.Aborting

/-!
# Runs in which the file system refuses something

What the file system refuses to a command is reported on one line of standard output, and the exit
code is one.  But the file for the log is opened before there is a command, and a refusal there is
reported to nobody: it leaves the run as it is.  That is the only one that does.

Main statement: `run_reportsFileFailures`.

## Why nothing else is printed

A command that may still ask the file system for something has printed nothing on standard output so
far (`PrintsNothingBefore`).  Once it has begun to print, it asks for no file any more
(`SparesFiles`).
-/

namespace DevMachines

/-- Has the file system refused something? -/
def Failure.isFromFiles : Failure → Bool
  | .file .. => true
  | .document (.unreadable _ (.file _)) => true
  | _ => false

/-- The report of what the file system has refused, with markup. -/
def Failure.fileReport : Failure → String
  | .document fault => Session.signed "red" "❌ " fault.message
  | failure => Session.signed "red" "❌ Error: " failure.message

namespace Activity

open Session

variable {α β ε : Type}

/-! ## Activities that need no file -/

/-- Does the file system never end an activity? -/
def SparesFiles (a : Activity α) : Prop :=
  ∀ s failure t, a.perform s = (.error failure, t) → failure.isFromFiles = false

theorem sparesFiles_of_ok {a : Activity α} (h : ∀ s, ∃ x t, a.perform s = (.ok x, t)) :
    SparesFiles a := by
  intro s failure t hrun
  obtain ⟨x, u, hok⟩ := h s
  rw [hok] at hrun
  cases congrArg Prod.fst hrun

theorem sparesFiles_pure (x : α) : SparesFiles (pure x) :=
  sparesFiles_of_ok fun s => ⟨x, s, perform_pure x s⟩

theorem sparesFiles_throw {failure : Failure} (h : failure.isFromFiles = false) :
    SparesFiles (throw failure : Activity α) := by
  intro s other t hrun
  obtain rfl : failure = other := Except.error.inj (congrArg Prod.fst hrun)
  exact h

theorem sparesFiles_orFail {failure : ε → Failure} (h : ∀ fault, (failure fault).isFromFiles = false)
    (x : Except ε α) : SparesFiles (orFail failure x) := by
  cases x with
  | ok x => exact sparesFiles_pure x
  | error fault => exact sparesFiles_throw (h fault)

theorem sparesFiles_modify (f : Session → Session) : SparesFiles (modify f : Activity Unit) :=
  sparesFiles_of_ok fun s => ⟨(), f s, rfl⟩

theorem SparesFiles.bind {a : Activity α} {f : α → Activity β} (ha : SparesFiles a)
    (hf : ∀ x, SparesFiles (f x)) : SparesFiles (a >>= f) := by
  intro s failure t hrun
  rw [perform_bind] at hrun
  generalize hfirst : a.perform s = first at hrun
  obtain ⟨result, u⟩ := first
  cases result with
  | ok x => exact hf x u failure t hrun
  | error other =>
    obtain rfl : other = failure := Except.error.inj (congrArg Prod.fst hrun)
    exact ha s other u hfirst

theorem sparesFiles_print (text : String) : SparesFiles (print text) := sparesFiles_modify _

theorem sparesFiles_tell (audience : Audience) (message : String) :
    SparesFiles (tell audience message) :=
  sparesFiles_of_ok fun s => ⟨(), s.told audience message, perform_tell audience message s⟩

/-- Looking for the project root asks for no file. -/
theorem sparesFiles_projectRoot (given : Option Path) : SparesFiles (projectRoot given) := by
  intro s failure t hrun
  rw [perform_projectRoot] at hrun
  cases hroot : Settings.projectRoot s.environment given with
  | ok root =>
    rw [hroot] at hrun
    cases congrArg Prod.fst hrun
  | error fault =>
    rw [hroot] at hrun
    obtain rfl : Failure.home fault = failure := Except.error.inj (congrArg Prod.fst hrun)
    rfl

/-- Profiles are declared without asking for a file. -/
theorem sparesFiles_declareFrom (settings : Settings.MergedSettings) (audience : Audience) :
    SparesFiles (declareFrom settings audience) := by
  intro s failure t hrun
  rw [declareFrom, perform_declareProfiles] at hrun
  cases hfolders :
      (Workspace.ofSetting (settings.get? workspaceKey)).folders s.environment.home with
  | ok folders =>
    rw [hfolders] at hrun
    cases congrArg Prod.fst hrun
  | error rejection =>
    rw [hfolders] at hrun
    obtain rfl : Failure.ofRejection "SharedFolder" rejection = failure :=
      Except.error.inj (congrArg Prod.fst hrun)
    cases rejection <;> rfl

/-- What needs no file adds no way for the file system to end an activity. -/
theorem perform_bind_files_iff {a : Activity α} {f : α → Activity β} (hf : ∀ x, SparesFiles (f x))
    {failure : Failure} (h : failure.isFromFiles = true) (s : Session) :
    ((a >>= f).perform s).1 = .error failure ↔ (a.perform s).1 = .error failure := by
  rw [perform_bind]
  generalize a.perform s = first
  obtain ⟨result, t⟩ := first
  cases result with
  | ok x =>
    refine iff_of_false (fun hrun => ?_) fun hrun => ?_
    · have hnone := hf x t failure _ (Prod.ext hrun rfl)
      rw [h] at hnone
      cases hnone
    · cases hrun
  | error other =>
    dsimp only
    rw [Except.error.injEq, Except.error.injEq]

/-! ## Activities that need files first -/

/-- Has nothing been printed on standard output when the file system ends an activity? -/
def PrintsNothingBefore (a : Activity α) : Prop :=
  ∀ s failure t, a.perform s = (.error failure, t) → failure.isFromFiles = true →
    t.output = s.output

theorem SparesFiles.printsNothingBefore {a : Activity α} (h : SparesFiles a) :
    PrintsNothingBefore a := by
  intro s failure t hrun hfiles
  rw [h s failure t hrun] at hfiles
  cases hfiles

theorem Keeps.printsNothingBefore_bind {a : Activity α} {f : α → Activity β}
    (ha : Keeps (fun s t => t.output = s.output) a) (hf : ∀ x, PrintsNothingBefore (f x)) :
    PrintsNothingBefore (a >>= f) := by
  intro s failure t hrun hfiles
  have hkept := ha s
  rw [perform_bind] at hrun
  generalize a.perform s = first at hkept hrun
  obtain ⟨result, u⟩ := first
  cases result with
  | ok x => exact (hf x u failure t hrun hfiles).trans hkept
  | error other =>
    obtain rfl : u = t := congrArg Prod.snd hrun
    exact hkept

theorem PrintsNothingBefore.bind {a : Activity α} {f : α → Activity β}
    (ha : PrintsNothingBefore a) (hf : ∀ x, SparesFiles (f x)) : PrintsNothingBefore (a >>= f) := by
  intro s failure t hrun hfiles
  rw [perform_bind] at hrun
  generalize hfirst : a.perform s = first at hrun
  obtain ⟨result, u⟩ := first
  cases result with
  | ok x =>
    rw [hf x u failure t hrun] at hfiles
    cases hfiles
  | error other =>
    obtain ⟨hfailure, rfl⟩ := Prod.mk.inj hrun
    obtain rfl : other = failure := Except.error.inj hfailure
    exact ha s other u hfirst hfiles

end Activity

namespace CommandLine

open Session Activity

/-! ## Commands -/

theorem sparesFiles_printMarkup (columns : Nat) (markup : String) :
    SparesFiles (printMarkup columns markup) :=
  (sparesFiles_orFail (fun _ => rfl) _).bind fun _ => sparesFiles_print _

theorem sparesFiles_printLong (markup : String) : SparesFiles (printLong markup) :=
  (sparesFiles_orFail (fun _ => rfl) _).bind fun _ => sparesFiles_print _

theorem printsNothingBefore_runSettings (columns : Nat) (given : Option Path)
    (format : SettingsFormat) : PrintsNothingBefore (runSettings columns given format) := by
  refine (keeps_loadSettings (bookkeeping_output (by decide)) given).printsNothingBefore_bind
    fun settings => SparesFiles.printsNothingBefore ?_
  cases format with
  | json => exact (sparesFiles_orFail (fun _ => rfl) _).bind fun _ => sparesFiles_print _
  | yaml =>
    have hsources : SparesFiles (printSources columns settings) :=
      (sparesFiles_orFail (fun _ => rfl) _).bind fun _ => sparesFiles_print _
    refine hsources.bind fun _ => ?_
    split
    · exact sparesFiles_printMarkup columns _
    · split
      · exact sparesFiles_throw rfl
      · exact sparesFiles_print _

theorem printsNothingBefore_runProfiles (columns : Nat) (given : Option Path)
    (format : ProfilesFormat) : PrintsNothingBefore (runProfiles columns given format) := by
  refine (keeps_loadSettings (bookkeeping_output (by decide)) given).printsNothingBefore_bind
    fun settings => SparesFiles.printsNothingBefore ?_
  exact (sparesFiles_declareFrom settings _).bind fun _ =>
    (sparesFiles_orFail (fun _ => rfl) _).bind fun _ => sparesFiles_print _

/-- Writing a file prints nothing. -/
theorem keeps_output_writeFile (path : Path) (octets : Text.Octets) :
    Keeps (fun s t => t.output = s.output) (writeFile path octets) := by
  intro s
  rcases writeFile_cases path octets s with ⟨failure, herror⟩ | ⟨place, hok, -⟩
  · rw [herror]
  · rw [hok]

theorem printsNothingBefore_runVagrantfile (given : Option Path) (output : Option String) :
    PrintsNothingBefore (runVagrantfile given output) := by
  rw [runVagrantfile_eq]
  refine Keeps.printsNothingBefore_bind (output_wantedProfiles given) fun profiles => ?_
  cases output with
  | none => exact (sparesFiles_print _).printsNothingBefore
  | some name =>
    exact (keeps_output_writeFile _ _).printsNothingBefore_bind fun _ =>
      (sparesFiles_tell _ _).printsNothingBefore

theorem printsNothingBefore_runInit (columns : Nat) (given : Option Path) (force : Bool) :
    PrintsNothingBefore (runInit columns given force) := by
  have hquiet : Audience.nobody ≠ .output := by decide
  have hthere : ∀ path, Keeps (fun s t => t.output = s.output) (isThere path) := fun path s => by
    rw [perform_isThere]
  have hread : ∀ path, Keeps (fun s t => t.output = s.output) (readFile path) := fun path s => by
    rw [perform_readFile]
  rw [runInit_eq]
  refine (keeps_defaultsPath (bookkeeping_output hquiet) given).printsNothingBefore_bind
    fun defaults => ?_
  refine (keeps_overridesPath (bookkeeping_output hquiet) given).printsNothingBefore_bind
    fun overrides => ?_
  refine (hthere defaults).printsNothingBefore_bind fun hasDefaults => ?_
  split
  · exact ((sparesFiles_printMarkup columns _).bind fun _ => sparesFiles_pure 1).printsNothingBefore
  · refine (hthere overrides).printsNothingBefore_bind fun hasOverrides => ?_
    split
    · exact ((sparesFiles_printMarkup columns _).bind fun _ =>
        (sparesFiles_printMarkup columns _).bind fun _ => sparesFiles_pure 1).printsNothingBefore
    · refine (hread defaults).printsNothingBefore_bind fun octets => ?_
      refine (keeps_output_writeFile overrides octets).printsNothingBefore_bind fun _ => ?_
      refine SparesFiles.printsNothingBefore (sparesFiles_of_ok fun s => ?_)
      obtain ⟨t, hannounced, -⟩ := announces_announce columns overrides s
      exact ⟨0, t, hannounced⟩

/-- **A command that the file system ends has printed nothing on standard output.** -/
theorem printsNothingBefore_run (columns : Nat) (given : Option Path) (c : Command) :
    PrintsNothingBefore (c.run columns given) := by
  cases c with
  | settings format =>
    exact (printsNothingBefore_runSettings columns given format).bind fun _ => sparesFiles_pure 0
  | profiles format =>
    exact (printsNothingBefore_runProfiles columns given format).bind fun _ => sparesFiles_pure 0
  | vagrantfile output =>
    exact (printsNothingBefore_runVagrantfile given output).bind fun _ => sparesFiles_pure 0
  | init force => exact printsNothingBefore_runInit columns given force

/-! ## The report -/

/-- There is always something to print about a refusal. -/
theorem exists_unwrapped_fileReport (failure : Failure) :
    ∃ text, unwrapped failure.fileReport = .ok text := by
  unfold Failure.fileReport
  split
  · next fault => exact exists_unwrapped_document fault
  · refine exists_unwrapped_signed ?_ ?_ ?_ _
    · exact ⟨'r', "ed".toList, by decide, by decide, by decide⟩
    · decide
    · simp

/-- What the file system refuses is reported on standard output, and the exit code is one. -/
theorem perform_reportFailure_files {failure : Failure} (h : failure.isFromFiles = true)
    {text : String} (htext : unwrapped failure.fileReport = .ok text) (columns : Nat) (s : Session) :
    (reportFailure columns failure).perform s = (.ok 1, { s with output := s.output ++ text }) := by
  have hprint : (printLong failure.fileReport).perform s =
      (.ok (), { s with output := s.output ++ text }) := by
    rw [printLong, htext]
    rfl
  cases failure with
  | file fault path => exact perform_bind_ok hprint _
  | document fault => exact perform_bind_ok hprint _
  | home | value | nulInPath | data | json | level | interpolation | givenTwice | markup | outside
    | interrupted => cases h

/-- Reporting a failure asks for no file. -/
theorem sparesFiles_reportFailure (columns : Nat) (failure : Failure) :
    SparesFiles (reportFailure columns failure) := by
  cases failure with
  | file | document =>
    exact (sparesFiles_printLong _).bind fun _ => sparesFiles_pure 1
  | interrupted => exact (sparesFiles_printMarkup columns _).bind fun _ => sparesFiles_pure 1
  | home | value | nulInPath | data | json | level | interpolation | givenTwice | markup | outside =>
    exact (sparesFiles_throw rfl).bind fun _ => sparesFiles_pure 1

/-- **Once a run has been prepared, no refusal of the file system leaves it.** -/
theorem sparesFiles_obey (columns : Nat) (given : Option Path) (command : Option Command) :
    SparesFiles (obey columns given command) := by
  cases command with
  | none =>
    have hbanner : SparesFiles (printBanner columns) :=
      (sparesFiles_printMarkup columns _).bind fun _ => sparesFiles_printMarkup columns _
    exact hbanner.bind fun _ => (sparesFiles_print _).bind fun _ => sparesFiles_pure _
  | some c =>
    have hattempt : SparesFiles (attempt (c.run columns given)) :=
      sparesFiles_of_ok fun s => ⟨_, _, perform_attempt (c.run columns given) s⟩
    refine hattempt.bind fun result => ?_
    cases result with
    | ok code => exact sparesFiles_pure _
    | error failure => exact (sparesFiles_reportFailure columns failure).bind fun _ => sparesFiles_pure _

/-! ## The file for the log -/

/-- Does the file system refuse to open the file for the log, and what does it say? -/
def LogOptions.IsRefused (log : LogOptions) (s : Session) (failure : Failure) : Prop :=
  ∃ file fault, log.file = some file ∧ file.hasNul = false ∧
    s.files.append s.environment.workingDirectory (logPath s file) [] = .error fault ∧
    failure = .file fault (logPath s file).toText

theorem perform_openLogFile_files_iff {file : Path} {s : Session} {failure : Failure}
    (h : failure.isFromFiles = true) :
    ((openLogFile file).perform s).1 = .error failure ↔ file.hasNul = false ∧
      ∃ fault, s.files.append s.environment.workingDirectory (logPath s file) [] = .error fault ∧
        failure = .file fault (logPath s file).toText := by
  rw [openLogFile]
  cases hnul : file.hasNul with
  | true =>
    refine iff_of_false (fun hrun => ?_) (fun hnone => by cases hnone.1)
    obtain rfl : Failure.nulInPath = failure := Except.error.inj hrun
    cases h
  | false =>
    rw [if_neg Bool.false_ne_true, perform_bind_ok (perform_get s)]
    dsimp only
    rw [← logPath, and_iff_right rfl]
    cases s.files.append s.environment.workingDirectory (logPath s file) [] with
    | ok files =>
      refine iff_of_false (fun hrun => ?_) ?_
      · cases hrun
      · rintro ⟨_, hrefused, _⟩
        cases hrefused
    | error fault =>
      constructor
      · exact fun hrun => ⟨fault, rfl, (Except.error.inj hrun).symm⟩
      · rintro ⟨other, hother, rfl⟩
        obtain rfl := Except.error.inj hother
        rfl

/-- A log file that is refused ends a run before it has been prepared, and nothing else that the
file system does can end it there. -/
theorem perform_prepare_files_iff {a : Arguments} {s : Session} {failure : Failure}
    (h : failure.isFromFiles = true) :
    ((prepare a).perform s).1 = .error failure ↔ a.log.IsRefused s failure := by
  have hrest : ∀ done : Unit, SparesFiles (do
      let root ← projectRoot a.root
      bindContext (a.command.map Command.name) root.toText) := fun _ =>
    (sparesFiles_projectRoot a.root).bind fun root => sparesFiles_modify _
  rw [prepare, perform_bind_files_iff hrest h, configure]
  refine (perform_bind_files_iff (fun file => ?_) h s).trans ?_
  · split
    · exact (sparesFiles_modify _).bind fun _ => sparesFiles_modify _
    · dsimp only
      split
      · exact (sparesFiles_modify _).bind fun _ => sparesFiles_throw rfl
      · exact sparesFiles_throw rfl
  · rw [LogOptions.IsRefused]
    cases hfile : a.log.file with
    | none =>
      refine iff_of_false (fun hrun => ?_) ?_
      · cases hrun
      · rintro ⟨_, _, hsome, _⟩
        cases hsome
    | some file =>
      have hopen : ((some file).mapM openLogFile).perform s =
          (openLogFile file >>= fun path => pure (some path)).perform s := by
        rw [← map_eq_pure_bind]
        rfl
      rw [hopen, perform_bind_files_iff (fun _ => sparesFiles_pure _) h,
        perform_openLogFile_files_iff h]
      simp

/-! ## The run -/

/-- **What the file system refuses ends a run with one report and the exit code one, with a single
exception: a refusal to open the file for the log leaves the run as it is.** -/
theorem run_reportsFileFailures (columns : Nat) {words : List String} {a : Arguments}
    (hread : Arguments.read words = .ok a) (s : Session) :
    let run := (CommandLine.run columns words).perform s
    (∀ failure, failure.isFromFiles = true →
      (run.1 = .error failure ↔ a.log.IsRefused s failure)) ∧
    ∀ c ready failure after, a.command = some c → (prepare a).perform s = (.ok (), ready) →
      (c.run columns a.root).perform ready = (.error failure, after) →
      failure.isFromFiles = true →
      ∃ text, unwrapped failure.fileReport = .ok text ∧
        run = (.ok (.code 1), { after with output := s.output ++ text }) := by
  dsimp only
  rw [perform_run_of_read columns hread s]
  refine ⟨fun failure hfiles => ?_, fun c ready failure after hcommand hprepare hfails hfiles => ?_⟩
  · rw [perform_bind_files_iff (fun _ => sparesFiles_obey columns a.root a.command) hfiles,
      perform_prepare_files_iff hfiles]
  · obtain ⟨text, htext⟩ := exists_unwrapped_fileReport failure
    have hready : ready.output = s.output := by
      have hend := prepareEnd_prepare a s
      rw [hprepare] at hend
      cases hend with
      | done root threshold files => exact output_prepared a root threshold files s
    have hafter := printsNothingBefore_run columns a.root c ready failure after hfails hfiles
    have hreport := perform_reportFailure_files hfiles htext columns after
    refine ⟨text, htext, ?_⟩
    rw [perform_bind_ok hprepare, hcommand, perform_obey_error hfails, map_eq_pure_bind,
      perform_bind_ok hreport, perform_pure, hafter, hready]

/-- A project with shipped defaults and nothing else. -/
def shippedProject : Session where
  environment := { home := "/home/tester", configuredRoot := none, workingDirectory := ⟨1, []⟩ }
  files := ⟨[(["settings.yml.example"], .file (Text.encode "moqt_workspace_path: /srv/w\n"))]⟩

/-- An export to a directory that is not there is reported. -/
theorem run_reportsFileFailures_missingDirectory :
    let run := (CommandLine.run 80 ["vagrantfile", "--output", "out/Vagrantfile"]).perform
      shippedProject
    run.1 = .ok (.code 1) ∧ ∃ text,
      unwrapped (Failure.file .notFound "out/Vagrantfile").fileReport = .ok text ∧
        run.2.output = text := by
  let a : Arguments := { command := some (.vagrantfile (some "out/Vagrantfile")) }
  have hread : Arguments.read ["vagrantfile", "--output", "out/Vagrantfile"] = .ok a := rfl
  have hprepare : ((prepare a).perform shippedProject).1 = .ok () := by decide +kernel
  have hfails : ((Command.run 80 a.root (.vagrantfile (some "out/Vagrantfile"))).perform
      ((prepare a).perform shippedProject).2).1 = .error (.file .notFound "out/Vagrantfile") := by
    decide +kernel
  obtain ⟨text, htext, hrun⟩ := (run_reportsFileFailures 80 hread shippedProject).2 _ _ _ _ rfl
    (Prod.ext hprepare rfl) (Prod.ext hfails rfl) rfl
  intro run
  have hrun' : run = _ := hrun
  rw [hrun']
  exact ⟨rfl, text, htext, String.empty_append⟩

/-- **A log file in a directory that is not there ends a run without a report**: the refusal leaves
the run, and nothing is printed. -/
theorem run_leaves_missingLogDirectory :
    let run := (CommandLine.run 80 ["--log-file", "logs/run.log", "settings"]).perform
      shippedProject
    run.1 = .error (.file .notFound "/logs/run.log") ∧ run.2.output = "" := by
  decide +kernel

end CommandLine
end DevMachines
