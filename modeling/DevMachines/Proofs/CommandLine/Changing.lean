import DevMachines.Proofs.CommandLine.Copying

/-!
# Which files a run changes

A run has one file that it may change, its target, besides the file of its log.  `ObeyEnd` lists how
a run can end once it has been prepared: files are kept, or the one file has been written and the
run has succeeded.  There is no way to end in which a file has been written and the run has failed.

Main statement: `run_changesTargetOnly`, for every command line and from every session.

## Why two runs are compared

A Vagrantfile that is written should be the one that is printed.  That is a statement about another
run, with the same arguments but no file to write to.  The two runs are the same until the profiles
have been declared, because what a run is prepared with does not depend on the file.
-/

namespace DevMachines
namespace CommandLine

open Session Activity

/-! ## What a run does after it has been prepared -/

section Obey

variable {columns : Nat} {given : Option Path} {command : Command} {s t : Session}

theorem perform_obey_ok {code : Nat} (h : (command.run columns given).perform s = (.ok code, t)) :
    (obey columns given (some command)).perform s = (.ok (.code code), t) := by
  have hattempt := perform_attempt (command.run columns given) s
  rw [h] at hattempt
  rw [obey, perform_bind_ok hattempt, perform_pure]

/-- A command that fails is followed by a report of its failure. -/
theorem perform_obey_error {failure : Failure}
    (h : (command.run columns given).perform s = (.error failure, t)) :
    (obey columns given (some command)).perform s =
      (Exit.code <$> reportFailure columns failure).perform t := by
  have hattempt := perform_attempt (command.run columns given) s
  rw [h] at hattempt
  rw [obey, perform_bind_ok hattempt, map_eq_pure_bind]

/-- A run that ends with success has had a command that ended so; reports have none. -/
theorem perform_run_of_obey
    (h : (obey columns given (some command)).perform s = (.ok (.code 0), t)) :
    (command.run columns given).perform s = (.ok 0, t) := by
  rcases hrun : (command.run columns given).perform s with ⟨failure | code, u⟩
  · have hunsuccessful := (complains_reportFailure columns failure).unsuccessful u
    rw [perform_obey_error hrun, map_eq_pure_bind, perform_bind] at h
    generalize (reportFailure columns failure).perform u = reported at h hunsuccessful
    obtain ⟨escaped | code, v⟩ := reported
    · cases congrArg Prod.fst h
    · obtain rfl : code = 0 := Exit.code.inj (Except.ok.inj (congrArg Prod.fst h))
      exact absurd rfl hunsuccessful
  · rw [perform_obey_ok hrun] at h
    obtain rfl : code = 0 := Exit.code.inj (Except.ok.inj (congrArg Prod.fst h))
    exact congrArg (Except.ok 0, ·) (congrArg Prod.snd h)

end Obey

/-- How a run can end after it has been prepared, and the session afterwards. -/
inductive ObeyEnd (given : Option Path) (s : Session) :
    Option Command → Except Failure Exit × Session → Prop
  /-- Files change only where log records go, and a command that should write has no success. -/
  | kept (command : Option Command) (result : Except Failure Exit) (t : Session)
      (honly : OnlyLogs s t)
      (hquiet : result = .ok (.code 0) → (∀ name, command ≠ some (.vagrantfile (some name))) ∧
        ∀ force, command ≠ some (.init force)) :
      ObeyEnd given s command (result, t)
  | exported (name : String) (profiles : ProfileSet) (place : Place) (t : Session)
      (hprofiles : ((wantedProfiles given).perform s).1 = .ok profiles)
      (hwrites : Writes s t (Path.ofText name) (Text.encode profiles.vagrantfile) place) :
      ObeyEnd given s (some (.vagrantfile (some name))) (.ok (.code 0), t)
  | copied (force : Bool) (directory : Path) (source target : Place) (octets : Text.Octets)
      (t : Session) (hcopies : CopiesDefaults s t given force directory source target octets) :
      ObeyEnd given s (some (.init force)) (.ok (.code 0), t)

/-- A command that fails changes no file but the log, and so does the report of the failure. -/
theorem obeyEnd_of_error {columns : Nat} {given : Option Path} {command : Command} {s t : Session}
    {failure : Failure} (h : (command.run columns given).perform s = (.error failure, t))
    (honly : OnlyLogs s t) :
    ObeyEnd given s (some command) ((obey columns given (some command)).perform s) := by
  have hreport := complains_reportFailure columns failure
  have hkeeps := hreport.keeps t
  have hunsuccessful := hreport.unsuccessful t
  rw [perform_obey_error h, map_eq_pure_bind, perform_bind]
  generalize (reportFailure columns failure).perform t = run at hkeeps hunsuccessful
  obtain ⟨result, u⟩ := run
  have hall := isChained_onlyLogs.trans honly hkeeps
  cases result with
  | error escaped => exact .kept _ _ u hall nofun
  | ok code =>
    refine .kept _ _ u hall fun hzero => ?_
    cases hzero
    exact absurd rfl hunsuccessful

/-- Does a command write no file? -/
def Command.OnlyReads : Command → Prop
  | .settings _ | .profiles _ | .vagrantfile none => True
  | .vagrantfile (some _) | .init _ => False

theorem keeps_run {command : Command} (h : command.OnlyReads) (columns : Nat)
    (given : Option Path) : Keeps OnlyLogs (command.run columns given) := by
  have hthen : ∀ {a : Activity Unit}, Keeps OnlyLogs a → Keeps OnlyLogs (a >>= fun _ => pure 0) :=
    fun ha => ha.bind isChained_onlyLogs fun _ => keeps_pure isChained_onlyLogs 0
  cases command with
  | settings format => exact hthen (keeps_runSettings showing_onlyLogs columns given format)
  | profiles format => exact hthen (keeps_runProfiles showing_onlyLogs columns given format)
  | vagrantfile output =>
    cases output with
    | none => exact hthen (keeps_printVagrantfile given)
    | some name => exact h.elim
  | init force => exact h.elim

/-- A command that only reads changes no file but the log. -/
theorem obeyEnd_of_onlyReads (columns : Nat) (given : Option Path) (command : Command)
    (h : command.OnlyReads) (s : Session) :
    ObeyEnd given s (some command) ((obey columns given (some command)).perform s) := by
  have honly := keeps_run h columns given s
  rcases hrun : (command.run columns given).perform s with ⟨result, t⟩
  rw [hrun] at honly
  cases result with
  | error failure => exact obeyEnd_of_error hrun honly
  | ok code =>
    rw [perform_obey_ok hrun]
    refine .kept _ _ t honly fun _ => ⟨?_, ?_⟩
    · rintro name ⟨⟩
      exact h
    · rintro force ⟨⟩
      exact h

/-- **A run that has been prepared ends in one of these ways.** -/
theorem obeyEnd_obey (columns : Nat) (given : Option Path) (command : Option Command)
    (s : Session) : ObeyEnd given s command ((obey columns given command).perform s) := by
  cases command with
  | none =>
    have honly : Keeps OnlyLogs (obey columns given none) :=
      (keeps_printBanner showing_onlyLogs columns).bind isChained_onlyLogs fun _ =>
        (keeps_print showing_onlyLogs _).bind isChained_onlyLogs fun _ =>
          keeps_pure isChained_onlyLogs _
    exact .kept _ _ _ (honly s) fun _ => ⟨nofun, nofun⟩
  | some command =>
    cases command with
    | settings format => exact obeyEnd_of_onlyReads columns given (.settings format) trivial s
    | profiles format => exact obeyEnd_of_onlyReads columns given (.profiles format) trivial s
    | vagrantfile output =>
      cases output with
      | none => exact obeyEnd_of_onlyReads columns given (.vagrantfile none) trivial s
      | some name =>
        rcases writeVagrantfile_cases given name s with
          ⟨failure, t, herror, honly⟩ | ⟨profiles, place, t, hok, hprofiles, hwrites⟩
        · have hrun : ((Command.vagrantfile (some name)).run columns given).perform s =
              (.error failure, t) := perform_bind_error herror _
          exact obeyEnd_of_error hrun honly
        · have hrun : ((Command.vagrantfile (some name)).run columns given).perform s =
              (.ok 0, t) := perform_bind_ok hok _
          rw [perform_obey_ok hrun]
          exact .exported name profiles place t hprofiles hwrites
    | init force =>
      have hrun : ((Command.init force).run columns given).perform s =
          (runInit columns given force).perform s := rfl
      rcases runInit_cases columns given force s with
        ⟨result, t, hend, hresult, honly⟩ | ⟨t, directory, source, target, octets, hend, hcopies⟩
      · rw [hend] at hrun
        cases result with
        | error failure => exact obeyEnd_of_error hrun honly
        | ok code =>
          rw [perform_obey_ok hrun]
          refine .kept _ _ t honly fun hzero => ?_
          cases hzero
          exact absurd rfl hresult
      · rw [hend] at hrun
        rw [perform_obey_ok hrun]
        exact .copied force directory source target octets t hcopies

/-! ## The whole run -/

/-- Is a place the one that a command may change: the file that a Vagrantfile is written to, or the
user's own settings, where nothing is replaced unasked? -/
def Arguments.IsTarget (a : Arguments) (s : Session) (place : Place) : Prop :=
  match a.command with
  | some (.vagrantfile (some name)) =>
      s.files.destination s.environment.workingDirectory (Path.ofText name) = .ok place
  | some (.init force) => ∃ directory,
      Settings.projectRoot s.environment a.root = .ok directory ∧
      s.files.destination s.environment.workingDirectory
        (directory.child Settings.overridesName) = .ok place ∧
      (force = true ∨ s.files.get? place = none)
  | _ => False

theorem output_prepared (a : Arguments) (root : Path) (threshold : Nat) (files : FileTree)
    (s : Session) : (prepared a root threshold files s).output = s.output :=
  output_notedAll (setUp a.log threshold files s) _

section Prepared

variable {columns : Nat} {a : Arguments} {s t u : Session}

/-- A path leads to the same place before the run has been prepared. -/
theorem Prepares.destination_eq (h : Prepares a s t) {path : Path} {place : Place}
    (hplace : t.files.destination t.environment.workingDirectory path = .ok place) :
    s.files.destination s.environment.workingDirectory path = .ok place := by
  rwa [h.environment, h.files.destination_eq_ok_iff] at hplace

/-- A file that is written changes no place but its own and those of the log. -/
theorem get?_of_writes (hprepares : Prepares a s t) {path : Path} {octets : Text.Octets}
    {target place : Place} (hwrites : Writes t u path octets target)
    (hplace : ¬ a.log.LeadsTo s place) (hne : place ≠ target) :
    u.files.get? place = s.files.get? place := by
  have hothers : ¬ (t.IsLogPlace place ∨ place = target) := by
    rintro (hlog | rfl)
    · exact hplace (hprepares.logs place hlog)
    · exact hne rfl
  rw [hwrites.others.get?_eq place hothers, hprepares.files.get?_eq place hplace]

/-- Whatever happens after the run has been prepared, only the target may change. -/
theorem get?_of_obeyEnd {result : Except Failure Exit} (hprepares : Prepares a s t)
    (hend : ObeyEnd a.root t a.command (result, u)) {place : Place}
    (hplace : ¬ a.log.LeadsTo s place) :
    u.files.get? place = s.files.get? place ∨
      result = .ok (.code 0) ∧ a.IsTarget s place := by
  generalize hcommand : a.command = command at hend
  cases hend with
  | kept _ _ _ honly hquiet =>
    have hlog : ¬ t.IsLogPlace place := fun hlog => hplace (hprepares.logs place hlog)
    exact Or.inl (by rw [honly.files.get?_eq place hlog, hprepares.files.get?_eq place hplace])
  | exported name profiles target _ hprofiles hwrites =>
    by_cases htarget : place = target
    · subst htarget
      refine Or.inr ⟨rfl, ?_⟩
      rw [Arguments.IsTarget, hcommand]
      exact hprepares.destination_eq hwrites.destination
    · exact Or.inl (get?_of_writes hprepares hwrites hplace htarget)
  | copied force directory source target octets _ hcopies =>
    by_cases htarget : place = target
    · subst htarget
      refine Or.inr ⟨rfl, ?_⟩
      rw [Arguments.IsTarget, hcommand]
      refine ⟨directory, ?_, hprepares.destination_eq hcopies.writes.destination, ?_⟩
      · rw [← hprepares.environment]
        exact hcopies.root
      · refine hcopies.replaced.imp_right fun hnone => ?_
        rw [← hprepares.files.get?_eq place hplace]
        exact hnone fun hlog => hplace (hprepares.logs place hlog)
    · exact Or.inl (get?_of_writes hprepares hcopies.writes hplace htarget)

end Prepared

end CommandLine
end DevMachines
