import DevMachines.Proofs.CommandLine.Changing
import DevMachines.Proofs.CommandLine.Reading
import DevMachines.Proofs.Session.Failing

/-!
# A run whose settings cannot be loaded

Every command that shows something loads the settings first.  When a document does not load, that is
the end of the command: the fault is reported on standard output, the exit code is one, and all that
happened besides is in the log.

Main statement: `run_of_failsToLoad`, for every such command and in every form of it.

## What the log tells

The events of the run are known in order, with the setup that each of them was reported under
(`Traces`).  A threshold may keep some of them from being written; `ReportsFault` is about the
events, so it says the same at every threshold.
-/

namespace DevMachines
namespace CommandLine

open Session Activity

section Prepare

variable {a : Arguments} {s : Session} {root : Path} {rank : Nat}

/-- A run whose log can be opened, with a threshold and a project root, is prepared. -/
theorem exists_prepared (hlog : a.log.Opens s) (hlevel : Log.rankOfName a.log.level = .ok rank)
    (hroot : Settings.projectRoot s.environment a.root = .ok root) :
    ∃ files, s.files.SameBut (a.log.LeadsTo s) files ∧
      (prepare a).perform s = (.ok (), prepared a root rank files s) := by
  have hend := prepareEnd_prepare a s
  generalize (prepare a).perform s = run at hend
  cases hend with
  | failed failure t hfiles hcause =>
    rcases hcause with hcannot | ⟨fault, hfault⟩ | ⟨fault, hfault⟩
    · exact absurd hlog hcannot
    · rw [hlevel] at hfault
      cases hfault
    · rw [hroot] at hfault
      cases hfault
  | done other threshold files hfiles hsame hother =>
    obtain rfl : root = other := Except.ok.inj (hroot.symm.trans hother)
    obtain rfl : rank = threshold := Except.ok.inj (hlevel.symm.trans hsame)
    exact ⟨files, hfiles, rfl⟩

/-- Preparing leaves a trace of where the project root comes from, under the setup without the
context of the command. -/
theorem traces_prepared (a : Arguments) (root : Path) (rank : Nat) (files : FileTree)
    (s : Session) : Traces s (prepared a root rank files s)
      ((Settings.projectRootEvents s.environment a.root).map
        ((setUp a.log rank files s).reporting, ·)) := by
  have hsetUp : Traces s (setUp a.log rank files s) [] := traces_nil rfl rfl rfl rfl
  have hbound : ∀ t, Traces t (bound a root t) [] := fun t => traces_nil rfl rfl rfl rfl
  have hall := (hsetUp.trans (traces_notedAll (setUp a.log rank files s)
    (Settings.projectRootEvents s.environment a.root))).trans (hbound _)
  rwa [List.nil_append, List.append_nil] at hall

theorem interruptPending_prepared (a : Arguments) (root : Path) (rank : Nat) (files : FileTree)
    (s : Session) : (prepared a root rank files s).interruptPending = s.interruptPending :=
  interruptPending_notedAll (setUp a.log rank files s) _

theorem reporting_prepared (a : Arguments) (root : Path) (rank : Nat) (files : FileTree)
    (s : Session) : (prepared a root rank files s).reporting.threshold = rank ∧
      (prepared a root rank files s).reporting.sinks = some (a.log.sinks s) := by
  have hnoted := reporting_notedAll (setUp a.log rank files s)
    (Settings.projectRootEvents s.environment a.root)
  exact ⟨congrArg (·.threshold) hnoted, congrArg (·.sinks) hnoted⟩

end Prepare

/-! ## The first thing that a command does -/

/-- A command that shows something fails when the settings cannot be loaded, before it does anything
else. -/
theorem perform_run_of_loadSettings {c : Command} (hc : ∀ force, c ≠ .init force) (columns : Nat)
    (given : Option Path) (s : Session) :
    ∃ audience, ∀ failure t, (loadSettings given audience).perform s = (.error failure, t) →
      (c.run columns given).perform s = (.error failure, t) := by
  cases c with
  | settings format =>
    exact ⟨.errors, fun _ _ h => perform_bind_error (perform_bind_error h _) _⟩
  | profiles format =>
    exact ⟨.nobody, fun _ _ h => perform_bind_error (perform_bind_error h _) _⟩
  | vagrantfile output =>
    exact ⟨.nobody, fun _ _ h => perform_bind_error (perform_bind_error h _) _⟩
  | init force => exact absurd rfl (hc force)

/-! ## The report -/

/-- What is printed about a fault of a document; there is always something. -/
theorem exists_unwrapped_document (fault : Settings.DocumentFault) :
    ∃ text, unwrapped (signed "red" "❌ " fault.message) = .ok text := by
  refine exists_unwrapped_signed ?_ ?_ ?_ fault.message
  · exact ⟨'r', "ed".toList, by decide, by decide, by decide⟩
  · decide
  · simp

/-- A fault of a document is reported on standard output, and the exit code is one. -/
theorem perform_reportFailure_document {columns : Nat} {fault : Settings.DocumentFault}
    {text : String} (h : unwrapped (signed "red" "❌ " fault.message) = .ok text) (s : Session) :
    (reportFailure columns (.document fault)).perform s =
      (.ok 1, { s with output := s.output ++ text }) := by
  have hprint : (printLong (signed "red" "❌ " fault.message)).perform s =
      (.ok (), { s with output := s.output ++ text }) := by
    rw [printLong, h]
    rfl
  exact perform_bind_ok hprint _

/-! ## The run -/

/-- A command that shows something ends with the report of the fault, when the settings cannot be
loaded. -/
theorem perform_obey_of_failsToLoad (columns : Nat) {c : Command} {given : Option Path}
    {root : Path} {fault : Settings.DocumentFault} {s : Session}
    (hshows : ∀ force, c ≠ .init force)
    (hroot : Settings.projectRoot s.environment given = .ok root)
    (hfails : FailsToLoad s root fault) (hlogs : s.AvoidsSettings s.IsLogPlace root) :
    ∃ text t events,
      unwrapped (signed "red" "❌ " fault.message) = .ok text ∧
      (obey columns given (some c)).perform s = (.ok (.code 1), t) ∧
      t.output = s.output ++ text ∧ OnlyLogs s t ∧
      ReportsFault fault events ∧ Traces s t (events.map (s.reporting, ·)) := by
  obtain ⟨audience, hfirst⟩ := perform_run_of_loadSettings hshows columns given s
  obtain ⟨events, t, hload, honly, hreports, hnotes⟩ :=
    perform_loadSettings_of_failsToLoad hroot hfails hlogs audience
  obtain ⟨text, htext⟩ := exists_unwrapped_document fault
  have hreport : (reportFailure columns (.document fault)).perform t =
      (.ok 1, { t with output := t.output ++ text }) := perform_reportFailure_document htext t
  have hprinted : Traces t { t with output := t.output ++ text } [] := traces_nil rfl rfl rfl rfl
  have htraces := hnotes.toTraces.trans hprinted
  rw [List.append_nil] at htraces
  refine ⟨text, _, events, htext, ?_, ?_, isChained_onlyLogs.trans honly ?_, hreports, htraces⟩
  · rw [perform_obey_error (hfirst _ t hload), map_eq_pure_bind, perform_bind_ok hreport,
      perform_pure]
  · exact congrArg (· ++ text) hnotes.output
  · exact onlyLogs_of_files_eq rfl rfl rfl

/-- **A fault of the settings ends every command that shows something**: the report of the fault is
all that is printed, nothing but the log is written, and the log tells of the fault. -/
theorem run_of_failsToLoad (columns : Nat) {words : List String} {a : Arguments} {c : Command}
    {root : Path} {fault : Settings.DocumentFault} {s : Session}
    (hread : Arguments.read words = .ok a) (hcommand : a.command = some c)
    (hshows : ∀ force, c ≠ .init force)
    (hroot : Settings.projectRoot s.environment a.root = .ok root)
    (hfails : FailsToLoad s root fault) (hopens : a.log.Opens s)
    (havoids : s.AvoidsSettings (a.log.LeadsTo s) root) :
    let run := (CommandLine.run columns words).perform s
    run.1 = .ok (.code 1) ∧
    (∃ text, unwrapped (signed "red" "❌ " fault.message) = .ok text ∧
      run.2.output = s.output ++ text) ∧
    s.files.SameBut (a.log.LeadsTo s) run.2.files ∧
    ∃ trace, Traces s run.2 trace ∧ ReportsFault fault (trace.map Prod.snd) ∧
      ∀ report ∈ trace, Log.rankOfName a.log.level = .ok report.1.threshold ∧
        report.1.sinks = some (a.log.sinks s) := by
  intro run
  obtain ⟨rank, hlevel⟩ := rankOfName_of_read hread
  obtain ⟨files, hfiles, hprepare⟩ := exists_prepared hopens hlevel hroot
  have hprepares := prepares_prepared hfiles root rank
  let ready := prepared a root rank files s
  have hready : FailsToLoad ready root fault := hfails.of_sameBut hprepares.files
    hprepares.environment (interruptPending_prepared a root rank files s) havoids
  have hlogs : ready.AvoidsSettings ready.IsLogPlace root :=
    havoids.of_sameBut hprepares.files hprepares.environment hprepares.logs
  have hroot' : Settings.projectRoot ready.environment a.root = .ok root := by
    rw [hprepares.environment, hroot]
  obtain ⟨text, t, events, htext, hobey, houtput, honly, hreports, htold⟩ :=
    perform_obey_of_failsToLoad columns hshows hroot' hready hlogs
  have hrun : run = (.ok (.code 1), t) := by
    show (CommandLine.run columns words).perform s = _
    rw [perform_run_of_read columns hread, perform_bind_ok hprepare, hcommand, hobey]
  clear_value run
  subst hrun
  have htraces := (traces_prepared a root rank files s).trans htold
  refine ⟨rfl, ⟨text, htext, ?_⟩, (hprepares.trans honly).files, _, htraces, ?_, ?_⟩
  · rw [houtput, output_prepared]
  · have hevents : ∀ (setup : Log.Setup) (es : List Log.Event),
        (es.map (setup, ·)).map Prod.snd = es := by
      intro setup es
      rw [List.map_map]
      exact List.map_id es
    rw [List.map_append, hevents, hevents]
    exact hreports.append_left fun e he => isAboutLoading_of_mem_projectRootEvents he
  · intro report hreport
    obtain ⟨hthreshold, hsinks⟩ := reporting_prepared a root rank files s
    rcases List.mem_append.mp hreport with h | h
    · obtain ⟨e, -, rfl⟩ := List.mem_map.mp h
      exact ⟨hlevel, rfl⟩
    · obtain ⟨e, -, rfl⟩ := List.mem_map.mp h
      exact ⟨hthreshold.symm ▸ hlevel, hsinks⟩

/-- A session in which the user's own settings are a list. -/
def listForOverrides : Session where
  environment := { home := "/home/tester", configuredRoot := none, workingDirectory := ⟨1, []⟩ }
  files := ⟨[(["settings.yml.example"], .file (Text.encode "a: 1\n")),
    (["settings.yml"], .file (Text.encode "- 1\n"))]⟩

/-- The words of an export with a log. -/
def loggedExport : List String :=
  ["--log-level", "DEBUG", "--log-file", "run.log", "vagrantfile", "-o", "Vagrantfile"]

/-- Does loading end with a fault? -/
def blames (fault : Settings.DocumentFault)
    (result : Except Failure (Option Settings.Document)) : Bool :=
  match result with
  | .error failure => failure = .document fault
  | .ok _ => false

theorem eq_error_of_blames {fault : Settings.DocumentFault}
    {result : Except Failure (Option Settings.Document)} (h : blames fault result = true) :
    result = .error (.document fault) := by
  cases result with
  | ok document => cases h
  | error failure => rw [of_decide_eq_true h]

theorem run_of_failsToLoad_listForOverrides :
    let run := (CommandLine.run 80 loggedExport).perform listForOverrides
    run.1 = .ok (.code 1) ∧ run.2.files.get? ["Vagrantfile"] = none := by
  let a : Arguments :=
    { log := { level := "DEBUG", file := some ⟨0, ["run.log"]⟩ }
      command := some (.vagrantfile (some "Vagrantfile")) }
  let fault : Settings.DocumentFault := .notMapping ⟨1, ["settings.yml"]⟩ "list"
  have hread : Arguments.read loggedExport = .ok a := rfl
  have hfirst : loads (fun _ => true)
      ((loadDocument 0 ⟨1, ["settings.yml.example"]⟩ true).perform listForOverrides) = true := by
    decide +kernel
  have hsecond : blames fault
      ((loadDocument 1 ⟨1, ["settings.yml"]⟩ false).perform listForOverrides).1 = true := by
    decide +kernel
  have hfails : FailsToLoad listForOverrides ⟨1, []⟩ fault := by
    obtain ⟨document, hdefaults, -⟩ := exists_of_loads hfirst
    exact Or.inr ⟨⟨some document, congrArg Prod.fst hdefaults⟩, eq_error_of_blames hsecond⟩
  have hopens : a.log.Opens listForOverrides := by
    rintro _ ⟨⟩
    exact ⟨by decide, _, rfl⟩
  have hlog : ∀ place, a.log.LeadsTo listForOverrides place → place = ["run.log"] := by
    rintro place ⟨_, ⟨⟩, hplace⟩
    exact (Except.ok.inj hplace).symm
  have havoids : listForOverrides.AvoidsSettings (a.log.LeadsTo listForOverrides) ⟨1, []⟩ := by
    refine ⟨fun place hplace hleads => ?_, fun place hplace hleads => ?_⟩
    · have hdefaults : ["settings.yml.example"] = place := Except.ok.inj hplace
      rw [hlog place hleads] at hdefaults
      exact absurd hdefaults (by decide)
    · have hoverrides : ["settings.yml"] = place := Except.ok.inj hplace
      rw [hlog place hleads] at hoverrides
      exact absurd hoverrides (by decide)
  have hrun := run_of_failsToLoad 80 hread rfl nofun rfl hfails hopens havoids
  generalize (CommandLine.run 80 loggedExport).perform listForOverrides = run at hrun ⊢
  obtain ⟨hexit, -, hfiles, -⟩ := hrun
  refine ⟨hexit, ?_⟩
  have hother : ¬ a.log.LeadsTo listForOverrides ["Vagrantfile"] := by
    intro hleads
    exact absurd (hlog _ hleads) (by decide)
  rw [hfiles.get?_eq _ hother]
  rfl

end CommandLine
end DevMachines
