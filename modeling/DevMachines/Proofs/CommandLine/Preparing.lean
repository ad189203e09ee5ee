import DevMachines.CommandLine.Run
import DevMachines.Proofs.Session.Keeping
import DevMachines.Proofs.Session.Tracing

/-!
# Before a command begins

A run sets the logging up, looks for the project root, and notes for the log what it is about.  Only
then does the command begin.  `prepare` is that part of a run by itself, and a run is `prepare` with
`obey` behind it.

Setting the logging up can end in two ways (`ConfigureEnd`): it fails, because the file for the log
cannot be added to or the threshold has no such name, or it is done, and then the session is known.
Either way files change only where the log of the run goes.

## Why the place of the log is asked for in the session before

The file for the log may not be there, and then setting the logging up makes it.  Where its path
leads is settled before that: no directory is made on the way.
-/

namespace DevMachines
namespace CommandLine

open Session Activity

/-! ## Two parts of a run -/

/-- What a run does before the command begins. -/
def prepare (a : Arguments) : Activity Unit := do
  configure a.log.level a.log.json a.log.file
  let root ← projectRoot a.root
  bindContext (a.command.map Command.name) root.toText

/-- What a run does when it has been prepared. -/
def obey (columns : Nat) (root : Option Path) : Option Command → Activity Exit
  | none => do
      printBanner columns
      print (moqtbox.help columns)
      pure (.code 0)
  | some command => do
      match ← attempt (command.run columns root) with
      | .ok code => pure (.code code)
      | .error failure => do pure (.code (← reportFailure columns failure))

theorem run_eq_prepare_bind_obey (columns : Nat) (a : Arguments) :
    a.run columns = prepare a >>= fun _ => obey columns a.root a.command := by
  rw [Arguments.run, prepare]
  simp only [bind_assoc]
  cases a.command <;> rfl

/-- A run whose words can be read is prepared, and then does what they say. -/
theorem perform_run_of_read (columns : Nat) {words : List String} {a : Arguments}
    (h : Arguments.read words = .ok a) (s : Session) :
    (run columns words).perform s =
      (prepare a >>= fun _ => obey columns a.root a.command).perform s := by
  rw [run, h]
  dsimp only
  rw [run_eq_prepare_bind_obey]

/-! ## The file for the log -/

/-- The path of a log file, as the setup keeps it. -/
def logPath (s : Session) (file : Path) : Path := Path.absolute s.environment.workingDirectory file

/-- Does the log of a run go to a place? -/
def LogOptions.LeadsTo (log : LogOptions) (s : Session) (place : Place) : Prop :=
  ∃ file, log.file = some file ∧
    s.files.destination s.environment.workingDirectory (logPath s file) = .ok place

/-- Can the file for the log be added to, if there is to be one? -/
def LogOptions.Opens (log : LogOptions) (s : Session) : Prop :=
  ∀ file, log.file = some file → file.hasNul = false ∧
    ∃ files, s.files.append s.environment.workingDirectory (logPath s file) [] = .ok files

/-- Opening the file for the log either fails and changes nothing, or adds nothing to that file. -/
theorem openLogFile_cases (file : Path) (s : Session) :
    (¬ (file.hasNul = false ∧
        ∃ files, s.files.append s.environment.workingDirectory (logPath s file) [] = .ok files) ∧
      ∃ failure, (openLogFile file).perform s = (.error failure, s)) ∨
    ∃ files, (openLogFile file).perform s = (.ok (logPath s file), { s with files }) ∧
      s.files.append s.environment.workingDirectory (logPath s file) [] = .ok files := by
  rw [openLogFile]
  cases hnul : file.hasNul with
  | true =>
    refine Or.inl ⟨?_, .nulInPath, rfl⟩
    rintro ⟨hnone, -⟩
    cases hnone
  | false =>
    rw [if_neg Bool.false_ne_true, perform_bind_ok (perform_get s)]
    dsimp only
    rw [← logPath]
    cases happend : s.files.append s.environment.workingDirectory (logPath s file) [] with
    | error fault =>
      refine Or.inl ⟨?_, .file fault (logPath s file).toText, rfl⟩
      rintro ⟨-, files, h⟩
      cases h
    | ok files => exact Or.inr ⟨files, rfl, rfl⟩

/-- The file for the log is opened, if there is to be one, and nothing else is touched. -/
def LogOptions.HasOpened (log : LogOptions) (s : Session) (files : FileTree) : Prop :=
  match log.file with
  | none => files = s.files
  | some file => s.files.append s.environment.workingDirectory (logPath s file) [] = .ok files

theorem LogOptions.HasOpened.sameBut {log : LogOptions} {s : Session} {files : FileTree}
    (h : log.HasOpened s files) : s.files.SameBut (log.LeadsTo s) files := by
  unfold HasOpened at h
  split at h
  · exact h ▸ .refl _ _
  · next file hfile =>
    obtain ⟨place, hplace, hdirectory, rfl⟩ := FileTree.append_eq_ok_iff.mp h
    refine (FileTree.sameBut_set hdirectory _).mono ?_
    rintro _ rfl
    exact ⟨file, hfile, hplace⟩

/-- Where the log goes there is something, once it has been opened. -/
theorem LogOptions.HasOpened.isSome {log : LogOptions} {s : Session} {files : FileTree}
    (h : log.HasOpened s files) {place : Place} (hplace : log.LeadsTo s place) :
    (files.get? place).isSome := by
  obtain ⟨file, hfile, hleads⟩ := hplace
  unfold HasOpened at h
  rw [hfile] at h
  obtain ⟨other, hother, hdirectory, rfl⟩ := FileTree.append_eq_ok_iff.mp h
  obtain rfl : place = other := Except.ok.inj (hleads.symm.trans hother)
  have hroot : place ≠ [] := by
    rintro rfl
    exact hdirectory rfl
  rw [FileTree.get?_set_self hroot]
  rfl

/-! ## The setup -/

/-- Where the records of a run go. -/
def LogOptions.sinks (log : LogOptions) (s : Session) : Log.Sinks where
  form := if log.json then .json else .readable s.environment.colours
  file := log.file.map (logPath s)

/-- The session in which records go where the options say. -/
def setUp (log : LogOptions) (threshold : Nat) (files : FileTree) (s : Session) : Session :=
  { s with
    files
    reporting := { threshold, sinks := some (log.sinks s), context := s.reporting.context } }

/-- How setting the logging up can end, and the session afterwards. -/
inductive ConfigureEnd (log : LogOptions) (s : Session) : Except Failure Unit × Session → Prop
  | failed (failure : Failure) (t : Session) (hfiles : s.files.SameBut (log.LeadsTo s) t.files)
      (hcause : ¬ log.Opens s ∨ ∃ fault, Log.rankOfName log.level = .error fault) :
      ConfigureEnd log s (.error failure, t)
  | done (threshold : Nat) (files : FileTree) (hopened : log.HasOpened s files)
      (hlevel : Log.rankOfName log.level = .ok threshold) :
      ConfigureEnd log s (.ok (), setUp log threshold files s)

/-- The file for the log, if there is to be one, is opened, or it cannot be. -/
theorem openLogFiles_cases (log : LogOptions) (s : Session) :
    (¬ log.Opens s ∧ ∃ failure, (log.file.mapM openLogFile).perform s = (.error failure, s)) ∨
    ∃ files, (log.file.mapM openLogFile).perform s =
        (.ok (log.file.map (logPath s)), { s with files }) ∧
      log.HasOpened s files := by
  unfold LogOptions.HasOpened
  cases hfile : log.file with
  | none => exact Or.inr ⟨s.files, rfl, rfl⟩
  | some file =>
    have hrun : ((some file).mapM openLogFile).perform s =
        (some <$> openLogFile file).perform s := rfl
    rw [hrun, map_eq_pure_bind]
    rcases openLogFile_cases file s with ⟨hcannot, failure, herror⟩ | ⟨files, hok, hopened⟩
    · exact Or.inl ⟨fun h => hcannot (h file hfile), failure, perform_bind_error herror _⟩
    · exact Or.inr ⟨files, perform_bind_ok hok _, hopened⟩

/-- **Setting the logging up ends in one of these ways.** -/
theorem configureEnd_configure (log : LogOptions) (s : Session) :
    ConfigureEnd log s ((configure log.level log.json log.file).perform s) := by
  rw [configure]
  rcases openLogFiles_cases log s with ⟨hcannot, failure, herror⟩ | ⟨files, hok, hopened⟩
  · rw [perform_bind_error herror]
    exact .failed failure s (.refl _ _) (Or.inl hcannot)
  · rw [perform_bind_ok hok]
    cases hlevel : Log.rankOfName log.level with
    | ok threshold => exact .done threshold files hopened hlevel
    | error fault =>
      dsimp only
      cases fault.isLate with
      | true => exact .failed (.level fault) _ hopened.sameBut (Or.inr ⟨fault, hlevel⟩)
      | false => exact .failed (.level fault) _ hopened.sameBut (Or.inr ⟨fault, hlevel⟩)

/-- Once the logging has been set up, there is something where the log goes. -/
theorem isSome_of_configure {log : LogOptions} {s t : Session}
    (h : (configure log.level log.json log.file).perform s = (.ok (), t)) {place : Place}
    (hplace : log.LeadsTo s place) : (t.files.get? place).isSome := by
  have hend := configureEnd_configure log s
  rw [h] at hend
  cases hend with
  | done threshold files hopened hlevel => exact hopened.isSome hplace

/-! ## The context -/

/-- The session in which records say what the run is about. -/
def bound (a : Arguments) (root : Path) (s : Session) : Session :=
  ((bindContext (a.command.map Command.name) root.toText).perform s).2

/-- The session in which the command begins. -/
def prepared (a : Arguments) (root : Path) (threshold : Nat) (files : FileTree) (s : Session) :
    Session :=
  bound a root
    ((setUp a.log threshold files s).notedAll (Settings.projectRootEvents s.environment a.root))

/-- How preparing a run can end, and the session afterwards. -/
inductive PrepareEnd (a : Arguments) (s : Session) : Except Failure Unit × Session → Prop
  | failed (failure : Failure) (t : Session) (hfiles : s.files.SameBut (a.log.LeadsTo s) t.files)
      (hcause : ¬ a.log.Opens s ∨ (∃ fault, Log.rankOfName a.log.level = .error fault) ∨
        ∃ fault, Settings.projectRoot s.environment a.root = .error fault) :
      PrepareEnd a s (.error failure, t)
  | done (root : Path) (threshold : Nat) (files : FileTree)
      (hfiles : s.files.SameBut (a.log.LeadsTo s) files)
      (hlevel : Log.rankOfName a.log.level = .ok threshold)
      (hroot : Settings.projectRoot s.environment a.root = .ok root) :
      PrepareEnd a s (.ok (), prepared a root threshold files s)

/-- Between a session and the one in which the command begins, files change only where the log of
the run goes, and from then on the log goes nowhere else. -/
structure Prepares (a : Arguments) (s t : Session) : Prop where
  environment : t.environment = s.environment
  files : s.files.SameBut (a.log.LeadsTo s) t.files
  logs : ∀ place, t.IsLogPlace place → a.log.LeadsTo s place

theorem prepares_setUp {a : Arguments} {s : Session} {files : FileTree}
    (hfiles : s.files.SameBut (a.log.LeadsTo s) files) (threshold : Nat) :
    Prepares a s (setUp a.log threshold files s) := by
  refine ⟨rfl, hfiles, ?_⟩
  rintro place ⟨sinks, file, hsinks, hfile, hplace⟩
  obtain rfl := Option.some.inj hsinks
  obtain ⟨name, hname, rfl⟩ := Option.map_eq_some_iff.mp hfile
  exact ⟨name, hname, hfiles.destination_eq_ok_iff.mp hplace⟩

theorem Prepares.trans {a : Arguments} {s t u : Session} (hst : Prepares a s t)
    (htu : OnlyLogs t u) : Prepares a s u :=
  ⟨htu.environment.trans hst.environment, hst.files.trans (htu.files.mono hst.logs),
    fun place h => hst.logs place ((htu.isLogPlace_iff place).mp h)⟩

theorem onlyLogs_bound (a : Arguments) (root : Path) (s : Session) :
    OnlyLogs s (bound a root s) :=
  onlyLogs_of_files_eq rfl rfl rfl

theorem prepares_prepared {a : Arguments} {s : Session} {files : FileTree}
    (hfiles : s.files.SameBut (a.log.LeadsTo s) files) (root : Path) (threshold : Nat) :
    Prepares a s (prepared a root threshold files s) :=
  ((prepares_setUp hfiles threshold).trans
    (onlyLogs_notedAll _ _)).trans (onlyLogs_bound a root _)

/-- **Preparing a run ends in one of these ways.** -/
theorem prepareEnd_prepare (a : Arguments) (s : Session) :
    PrepareEnd a s ((prepare a).perform s) := by
  rw [prepare]
  have hend := configureEnd_configure a.log s
  generalize hrun : (configure a.log.level a.log.json a.log.file).perform s = run at hend
  cases hend with
  | failed failure t hfiles hcause =>
    rw [perform_bind_error hrun]
    refine .failed failure t hfiles ?_
    rcases hcause with hcannot | hlevel
    · exact Or.inl hcannot
    · exact Or.inr (Or.inl hlevel)
  | done threshold files hopened hlevel =>
    have hfiles := hopened.sameBut
    have hlook := perform_projectRoot a.root (setUp a.log threshold files s)
    rw [perform_bind_ok hrun]
    cases hroot : Settings.projectRoot s.environment a.root with
    | error fault =>
      rw [show (setUp a.log threshold files s).environment = s.environment from rfl, hroot] at hlook
      rw [perform_bind_error hlook]
      have hnoted := (prepares_setUp hfiles threshold).trans
        (onlyLogs_notedAll _
          (Settings.projectRootEvents s.environment a.root))
      exact .failed _ _ hnoted.files (Or.inr (Or.inr ⟨fault, hroot⟩))
    | ok root =>
      rw [show (setUp a.log threshold files s).environment = s.environment from rfl, hroot] at hlook
      rw [perform_bind_ok hlook]
      exact .done root threshold files hfiles hlevel hroot

end CommandLine
end DevMachines
