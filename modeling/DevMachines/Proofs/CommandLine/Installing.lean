import DevMachines.Proofs.CommandLine.RootGiven
import DevMachines.Proofs.Session.CopyBeside

/-!
# A project whose own settings have been made

A run that makes the user's own settings leaves the project as it was shipped, as far as settings go:
what they come to afterwards is what they come to without any settings of the user's own, be it a
failure or the same entries in the same order, and the same profiles are shown and exported.

Main statement: `run_installsDefaults`.

## What is compared

The project after the run stands beside one that is the same, but has nothing at the place of the
copy.  The two may be logged differently, as long as no log is one of the two documents.  A second run
that is not told to replace anything then finds the settings there and leaves everything as it is.
-/

namespace DevMachines
namespace CommandLine

open Session Activity

/-! ## The copy that a run has made -/

/-- A run that was to make the user's own settings, and succeeded, has left a copy. -/
theorem exists_copy_of_run (columns : Nat) {words : List String} {a : Arguments} {force : Bool}
    {s : Session} (hread : Arguments.read words = .ok a) (hcommand : a.command = some (.init force))
    (hexit : ((run columns words).perform s).1 = .ok (.code 0)) :
    ∃ copy : Copy, Settings.projectRoot s.environment a.root = .ok copy.directory ∧
      copy.source ≠ copy.target ∧
      copy.IsIn ((run columns words).perform s).2.files s.environment.workingDirectory := by
  rw [perform_run_of_read columns hread s] at hexit ⊢
  have hprepare := prepareEnd_prepare a s
  generalize hready : (prepare a).perform s = ready at hprepare
  cases hprepare with
  | failed failure t hfiles hcause =>
    rw [perform_bind_error hready] at hexit
    cases hexit
  | done root threshold files hfiles hlevel hroot =>
    rw [perform_bind_ok hready] at hexit ⊢
    have hprepares := prepares_prepared hfiles root threshold
    have hobey := obeyEnd_obey columns a.root a.command (prepared a root threshold files s)
    generalize (obey columns a.root a.command).perform (prepared a root threshold files s) = last
      at hexit hobey ⊢
    rw [hcommand] at hobey
    cases hobey with
    | kept _ result t honly hquiet => exact absurd rfl ((hquiet hexit).2 force)
    | copied _ directory source target octets t hcopies =>
      have hsame : ∀ path place, s.files.destination s.environment.workingDirectory path = .ok place →
          t.files.destination s.environment.workingDirectory path = .ok place := by
        intro path place hplace
        rw [hcopies.writes.others.destination_eq_ok_iff, hprepares.files.destination_eq_ok_iff]
        exact hplace
      refine ⟨⟨directory, source, target, octets⟩, ?_, hcopies.distinct, hcopies.noNul, ?_, ?_,
        hcopies.copied, hcopies.writes.written⟩
      · rw [← hprepares.environment]
        exact hcopies.root
      · exact hsame _ _ (hprepares.destination_eq hcopies.origin)
      · exact hsame _ _ (hprepares.destination_eq hcopies.writes.destination)

/-! ## The project beside the shipped one -/

/-- Does a session go on in a project with a copy, without logging to one of its two documents? -/
structure GoesOn (s : Session) (files : FileTree) (copy : Copy) (u : Session) : Prop where
  environment : u.environment = s.environment
  files_eq : u.files = files
  logs : u.AvoidsSettings u.IsLogPlace copy.directory

/-- Does a session go on in a project that is the same, but has no settings of the user's own? -/
structure GoesOnWithout (s : Session) (files : FileTree) (copy : Copy) (v : Session) : Prop where
  environment : v.environment = s.environment
  sameBut : files.SameBut (· = copy.target) v.files
  missing : v.files.get? copy.target = none
  logs : v.AvoidsSettings v.IsLogPlace copy.directory

theorem GoesOn.projectRoot {s u : Session} {files : FileTree} {copy : Copy} {given : Option Path}
    (h : GoesOn s files copy u)
    (hgiven : Settings.projectRoot s.environment given = .ok copy.directory) :
    Settings.projectRoot u.environment given = .ok copy.directory := by
  rw [h.environment, hgiven]

theorem GoesOnWithout.projectRoot {s v : Session} {files : FileTree} {copy : Copy}
    {given : Option Path} (h : GoesOnWithout s files copy v)
    (hgiven : Settings.projectRoot s.environment given = .ok copy.directory) :
    Settings.projectRoot v.environment given = .ok copy.directory := by
  rw [h.environment, hgiven]

/-- Does an activity come to the same from two sessions, and print the same? -/
def SameFrom {α : Type} (u v : Session) (a : Activity α) : Prop :=
  (a.perform v).1 = (a.perform u).1 ∧
    ∃ text, (a.perform u).2.output = u.output ++ text ∧ (a.perform v).2.output = v.output ++ text

/-- What the project with the copy and the one without it have in common. -/
def commonOfCopy (copy : Copy) {u v : Session} (h : v.environment = u.environment) : Common where
  environment := u.environment
  other := v.environment
  home_eq := congrArg Environment.home h
  workingDirectory_eq := congrArg Environment.workingDirectory h
  logs place := place = copy.target ∨ u.IsLogPlace place ∨ v.IsLogPlace place
  reads := (· = copy.defaults)
  writes _ := False
  before := (u.output, v.output)

section Beside

variable {s u v : Session} {files : FileTree} {copy : Copy}
  (hcopy : copy.IsIn files s.environment.workingDirectory) (hdistinct : copy.source ≠ copy.target)
  (hu : GoesOn s files copy u) (hv : GoesOnWithout s files copy v)
  (hpending : v.interruptPending = u.interruptPending)

include hcopy hdistinct hu hv hpending

/-- The two sessions differ by the copy. -/
theorem differsByCopy :
    DiffersByCopy (commonOfCopy copy (hv.environment.trans hu.environment.symm)) copy u v := by
  obtain ⟨hsame, rfl, hlogs⟩ := hu
  rw [← hsame] at hcopy
  have hsource : ¬ u.IsLogPlace copy.source := hlogs.defaults _ hcopy.origin
  have htarget : ¬ u.IsLogPlace copy.target := hlogs.overrides _ hcopy.destination
  have hleads : ∀ {path place},
      u.files.destination u.environment.workingDirectory path = .ok place →
        v.files.destination v.environment.workingDirectory path = .ok place := by
    intro path place hplace
    rw [hv.environment, ← hsame, hv.sameBut.destination_eq_ok_iff]
    exact hplace
  have hsource' : ¬ v.IsLogPlace copy.source := hv.logs.defaults _ (hleads hcopy.origin)
  have htarget' : ¬ v.IsLogPlace copy.target := hv.logs.overrides _ (hleads hcopy.destination)
  refine ⟨⟨rfl, rfl, hpending, hv.sameBut.mono fun _ => Or.inl, fun _ hlog => Or.inr (Or.inl hlog),
    fun _ hlog => Or.inr (Or.inr hlog), ?_, fun _ h => h.elim,
    ⟨"", String.append_empty.symm, String.append_empty.symm⟩⟩, rfl, hcopy, hv.missing, htarget,
    htarget'⟩
  rintro _ rfl place hplace
  obtain rfl : copy.source = place := Except.ok.inj (hcopy.origin.symm.trans hplace)
  rintro (hsourceTarget | hlog | hlog)
  · exact hdistinct hsourceTarget
  · exact hsource hlog
  · exact hsource' hlog

variable {given : Option Path}
  (hgiven : Settings.projectRoot s.environment given = .ok copy.directory)

include hgiven

/-- The settings come to the same. -/
theorem meetBy_loadSettings_beside (audience : Audience) :
    MeetBy (commonOfCopy copy (hv.environment.trans hu.environment.symm)) (IsFromCopy copy)
      ((loadSettings given audience).perform u) ((loadSettings given audience).perform v) :=
  meetBy_loadSettings (differsByCopy hcopy hdistinct hu hv hpending) (hu.projectRoot hgiven)
    (hv.projectRoot hgiven) audience

/-- The same profiles are declared. -/
theorem meet_wantedProfiles_beside :
    Meet (commonOfCopy copy (hv.environment.trans hu.environment.symm))
      ((wantedProfiles given).perform u) ((wantedProfiles given).perform v) :=
  (meetBy_loadSettings_beside hcopy hdistinct hu hv hpending hgiven .nobody).bind
    fun _ _ hsettings => agrees_declareFrom_copy hsettings .errors

/-- The same profiles are shown. -/
theorem sameFrom_runProfiles (columns : Nat) (format : ProfilesFormat) :
    SameFrom u v (runProfiles columns given format) := by
  have hmeet : Meet (commonOfCopy copy (hv.environment.trans hu.environment.symm))
      ((runProfiles columns given format).perform u)
      ((runProfiles columns given format).perform v) :=
    (meetBy_loadSettings_beside hcopy hdistinct hu hv hpending hgiven .nobody).bind
      fun _ _ hsettings => (agrees_declareFrom_copy hsettings format.audience).bind fun _ =>
        (agrees_orFail _ _).bind fun _ => agrees_print _
  exact ⟨hmeet.1, hmeet.2.output⟩

/-- The same Vagrantfile is printed. -/
theorem sameFrom_runVagrantfile : SameFrom u v (runVagrantfile given none) := by
  have hmeet := (meet_wantedProfiles_beside hcopy hdistinct hu hv hpending hgiven).bind
    fun profiles => agrees_print profiles.vagrantfile
  rw [SameFrom, runVagrantfile_eq]
  exact ⟨hmeet.1, hmeet.2.output⟩

end Beside

/-! ## A second run -/

/-- What is there stays there until the command begins. -/
theorem isSome_of_prepare {a : Arguments} {s t : Session}
    (h : (prepare a).perform s = (.ok (), t)) {place : Place}
    (hthere : (s.files.get? place).isSome) : (t.files.get? place).isSome := by
  rw [prepare] at h
  have hend := configureEnd_configure a.log s
  rcases hconfigure : (configure a.log.level a.log.json a.log.file).perform s with
    ⟨failure | done, ready⟩
  · rw [perform_bind_error hconfigure] at h
    cases congrArg Prod.fst h
  · rw [perform_bind_ok hconfigure] at h
    have hkeeps : Keeps OnlyLogs (projectRoot a.root >>= fun root =>
        bindContext (a.command.map Command.name) root.toText) :=
      (keeps_projectRoot (bookkeeping_onlyLogs .nobody) a.root).bind isChained_onlyLogs
        fun _ => keeps_modify fun _ => onlyLogs_of_files_eq rfl rfl rfl
    have honly := hkeeps ready
    rw [h] at honly
    refine honly.present place ?_
    by_cases hlog : a.log.LeadsTo s place
    · exact isSome_of_configure hconfigure hlog
    · rw [hconfigure] at hend
      cases hend with
      | done threshold files hopened hlevel =>
        show (files.get? place).isSome
        rwa [hopened.sameBut.get?_eq place hlog]

/-- Settings that are there are not replaced unasked, and the user is told. -/
theorem perform_copyDefaults_kept (columns : Nat) {defaults overrides : Path} {s : Session}
    (hdefaults : s.contains defaults = .ok true) (hoverrides : s.contains overrides = .ok true) :
    ((copyDefaults columns false defaults overrides).perform s).1 = .ok 1 := by
  have hkept : ∃ text, Terminal.render
      (signed "red" "❌ Settings already exist: " overrides.toText).toList = .ok text := by
    refine exists_render_signed ?_ ?_ ?_ overrides.toText
    · exact ⟨'r', "ed".toList, by decide, by decide, by decide⟩
    · decide
    · simp
  have hhint : ∃ text, Terminal.render "[dim]Use --force to overwrite[/]".toList = .ok text :=
    exists_of_isOk (by decide +kernel)
  have hthere : ∀ {path}, s.contains path = .ok true → (isThere path).perform s = (.ok true, s) := by
    intro path hpath
    rw [Session.contains] at hpath
    rw [perform_isThere, hpath]
    rfl
  obtain ⟨text, htext⟩ := hkept
  obtain ⟨hint, hhint⟩ := hhint
  rw [copyDefaults, perform_bind_ok (hthere hdefaults)]
  rw [Bool.not_true, if_neg Bool.false_ne_true, perform_bind_ok (hthere hoverrides), Bool.true_and,
    Bool.not_false, if_pos rfl, perform_bind_ok (perform_printMarkup htext s),
    perform_bind_ok (perform_printMarkup hhint _), perform_pure]

/-- **Where there are settings of the user's own, a run that is not told to replace them has no
success and changes nothing.** -/
theorem run_keepsCopy (columns : Nat) {words : List String} {b : Arguments} {copy : Copy}
    {u : Session} (hcopy : copy.IsIn u.files u.environment.workingDirectory)
    (hread : Arguments.read words = .ok b) (hcommand : b.command = some (.init false))
    (hroot : Settings.projectRoot u.environment b.root = .ok copy.directory)
    (hopens : b.log.Opens u) :
    ((run columns words).perform u).1 = .ok (.code 1) ∧
      ∀ place, ¬ b.log.LeadsTo u place →
        ((run columns words).perform u).2.files.get? place = u.files.get? place := by
  obtain ⟨rank, hlevel⟩ := rankOfName_of_read hread
  obtain ⟨files, hfiles, hprepare⟩ := exists_prepared hopens hlevel hroot
  have hprepares := prepares_prepared hfiles copy.directory rank
  generalize prepared b copy.directory rank files u = t at hprepare hprepares
  have hrun : (run columns words).perform u = (obey columns b.root b.command).perform t := by
    rw [perform_run_of_read columns hread, perform_bind_ok hprepare]
  have hthere : ∀ {path place t'}, OnlyLogs t t' → path.hasNul = false →
      u.files.destination u.environment.workingDirectory path = .ok place →
      (u.files.get? place).isSome → t'.contains path = .ok true := by
    intro path place t' honly hnul hplace hsome
    refine FileTree.contains_of_isSome hnul ?_
      (honly.present place (isSome_of_prepare hprepare hsome))
    rw [honly.environment, honly.files.destination_eq_ok_iff, hprepares.environment,
      hprepares.files.destination_eq_ok_iff]
    exact hplace
  have hroot' : Settings.projectRoot t.environment b.root = .ok copy.directory := by
    rw [hprepares.environment, hroot]
  have hinit : ((runInit columns b.root false).perform t).1 = .ok 1 := by
    let looked := Settings.projectRootEvents t.environment b.root
    have hnext : Settings.projectRoot (t.notedAll looked).environment b.root = .ok copy.directory := by
      rw [environment_notedAll, hroot']
    have hnoted := onlyLogs_notedAll
    have honly := isChained_onlyLogs.trans (hnoted t looked) (hnoted (t.notedAll looked)
      (Settings.projectRootEvents (t.notedAll looked).environment b.root))
    rw [runInit_eq, perform_bind_ok (perform_defaultsPath hroot'),
      perform_bind_ok (perform_overridesPath hnext)]
    refine perform_copyDefaults_kept columns ?_ ?_
    · exact hthere honly hcopy.noNul_defaults hcopy.origin (by rw [hcopy.shipped]; rfl)
    · exact hthere honly hcopy.noNul hcopy.destination (by rw [hcopy.copied]; rfl)
  have hobey := obeyEnd_obey columns b.root b.command t
  rw [← hrun] at hobey
  have hresult : ((run columns words).perform u).1 = .ok (.code 1) := by
    have hended : ((Command.init false).run columns b.root).perform t =
        (.ok 1, ((runInit columns b.root false).perform t).2) := Prod.ext hinit rfl
    rw [hrun, hcommand, perform_obey_ok hended]
  refine ⟨hresult, fun place hplace => ?_⟩
  generalize (run columns words).perform u = last at hobey hresult ⊢
  rcases get?_of_obeyEnd hprepares hobey hplace with hsame | ⟨hzero, -⟩
  · exact hsame
  · rw [hresult] at hzero
    cases hzero

/-! ## The project after the run -/

/-- **A run that makes the user's own settings, and succeeds, makes the project come to what it was
shipped with.**  Resolving the settings comes to the same entries in the same order as without settings
of the user's own, read from the copy, with the copy for a second source; or it has the same failure,
one of the shipped defaults; and the profiles that are declared, shown and exported are the same.  A
second run that is not told to replace anything has no success and changes nothing. -/
theorem run_installsDefaults (columns : Nat) {words : List String} {a : Arguments} {force : Bool}
    {s : Session} (hread : Arguments.read words = .ok a) (hcommand : a.command = some (.init force))
    (hexit : ((run columns words).perform s).1 = .ok (.code 0)) :
    let after := ((run columns words).perform s).2.files
    ∃ copy : Copy, Settings.projectRoot s.environment a.root = .ok copy.directory ∧
      copy.IsIn after s.environment.workingDirectory ∧
      (∀ u v, GoesOn s after copy u → GoesOnWithout s after copy v →
        v.interruptPending = u.interruptPending →
        ∀ given, Settings.projectRoot s.environment given = .ok copy.directory →
          (∀ expected audience,
            let own := (resolveProject given expected audience).perform u
            let shipped := (resolveProject given expected audience).perform v
            ResultsBy (IsFromCopy copy) own.1 shipped.1 ∧
              ∀ failure, own.1 = .error failure → copy.IsOfDefaults failure) ∧
          ((wantedProfiles given).perform v).1 = ((wantedProfiles given).perform u).1 ∧
          (∀ width format, SameFrom u v (runProfiles width given format)) ∧
          SameFrom u v (runVagrantfile given none)) ∧
      ∀ u again b, u.environment = s.environment → u.files = after →
        Arguments.read again = .ok b → b.command = some (.init false) →
        Settings.projectRoot s.environment b.root = .ok copy.directory → b.log.Opens u →
        let second := (run columns again).perform u
        second.1 = .ok (.code 1) ∧
          ∀ place, ¬ b.log.LeadsTo u place → second.2.files.get? place = after.get? place := by
  intro after
  obtain ⟨copy, hroot, hdistinct, hcopy⟩ := exists_copy_of_run columns hread hcommand hexit
  refine ⟨copy, hroot, hcopy, fun u v hu hv hpending given hgiven => ⟨?_, ?_, ?_, ?_⟩, ?_⟩
  · intro expected audience own shipped
    have hdiffers := differsByCopy hcopy hdistinct hu hv hpending
    refine ⟨(meetBy_resolveProject hdiffers (hu.projectRoot hgiven) (hv.projectRoot hgiven) expected
      audience).result, ?_⟩
    exact fun failure => isOfDefaults_of_resolveProject_error hdiffers (hu.projectRoot hgiven)
      expected audience
  · exact (meet_wantedProfiles_beside hcopy hdistinct hu hv hpending hgiven).1
  · exact fun width => sameFrom_runProfiles hcopy hdistinct hu hv hpending hgiven width
  · exact sameFrom_runVagrantfile hcopy hdistinct hu hv hpending hgiven
  · intro u again b henvironment hfiles hread' hcommand' hroot' hopens second
    have hcopy' : copy.IsIn u.files u.environment.workingDirectory := by
      rw [henvironment, hfiles]
      exact hcopy
    rw [← hfiles]
    exact run_keepsCopy columns hcopy' hread' hcommand' (henvironment ▸ hroot') hopens

theorem run_installsDefaults_ownProject :
    let after := { ownProject with files := ((run 80 ["init"]).perform ownProject).2.files }
    SameFrom after ownProject (runVagrantfile none none) ∧
      ((run 80 ["init"]).perform after).1 = .ok (.code 1) := by
  let a : Arguments := { command := some (.init false) }
  have hread : Arguments.read ["init"] = .ok a := rfl
  have hrun : ((run 80 ["init"]).perform ownProject).1 = .ok (.code 0) ∧
      ((run 80 ["init"]).perform ownProject).2.files.entries =
        (ownProject.files.set ["settings.yml"]
          (.file (Text.encode "moqt_workspace_path: /srv/w\n"))).entries := by
    decide +kernel
  obtain ⟨hexit, hentries⟩ := hrun
  have hext : ∀ t u : FileTree, t.entries = u.entries → t = u := by
    rintro ⟨entries⟩ ⟨_⟩ rfl
    rfl
  have hfiles := hext _ _ hentries
  have hall := run_installsDefaults 80 hread rfl hexit
  generalize ((run 80 ["init"]).perform ownProject).2.files = after at hall hfiles ⊢
  obtain ⟨⟨directory, source, target, octets⟩, hroot, hcopy, hbeside, hagain⟩ := hall
  have hhere : Settings.projectRoot ownProject.environment a.root = .ok ⟨1, []⟩ := rfl
  obtain rfl := Except.ok.inj (hhere.symm.trans hroot)
  have htarget : ["settings.yml"] = target := by
    have hdestination := hcopy.destination
    rw [hfiles] at hdestination
    exact Except.ok.inj hdestination
  have hsame : after.SameBut (· = target) ownProject.files := by
    rw [hfiles, ← htarget]
    exact (FileTree.sameBut_set (by decide +kernel) _).symm
  have hnolog : ∀ {s : Session}, s.reporting.sinks = none →
      s.AvoidsSettings s.IsLogPlace ⟨1, []⟩ := by
    intro s hnone
    have hnowhere : ∀ path, s.Avoids s.IsLogPlace path := by
      rintro path place hplace ⟨sinks, file, hsinks, -⟩
      rw [hnone] at hsinks
      cases hsinks
    exact ⟨hnowhere _, hnowhere _⟩
  let u : Session := { ownProject with files := after }
  have hu : GoesOn ownProject after ⟨⟨1, []⟩, source, target, octets⟩ u := ⟨rfl, rfl, hnolog rfl⟩
  have hv : GoesOnWithout ownProject after ⟨⟨1, []⟩, source, target, octets⟩ ownProject :=
    ⟨rfl, hsame, htarget ▸ rfl, hnolog rfl⟩
  exact ⟨(hbeside u ownProject hu hv rfl none rfl).2.2.2,
    (hagain u ["init"] a rfl rfl hread rfl rfl nofun).1⟩

/-- A session in a project whose shipped defaults name a day that does not exist. -/
def impossibleDay : Session :=
  { ownProject with
    files := ⟨[(["settings.yml.example"], .file (Text.encode "a: 2020-02-30\n"))]⟩ }

theorem run_blamesNoDocument_impossibleDay :
    let after := { impossibleDay with files := ((run 80 ["init"]).perform impossibleDay).2.files }
    ((run 80 ["init"]).perform impossibleDay).1 = .ok (.code 0) ∧
      ((resolveProject none [] .nobody).perform after).1 = .error (.value (.noSuchTime .day)) ∧
      (Failure.value (.noSuchTime .day)).message = "day is out of range for month" := by
  intro after
  have hrun : ((run 80 ["init"]).perform impossibleDay).1 = .ok (.code 0) ∧
      ((resolveProject none [] .nobody).perform after).1.map (·.sources) =
        .error (.value (.noSuchTime .day)) := by
    decide +kernel
  obtain ⟨hexit, hfails⟩ := hrun
  refine ⟨hexit, ?_, rfl⟩
  generalize ((resolveProject none [] .nobody).perform after).1 = result at hfails ⊢
  cases result with
  | ok settings => cases hfails
  | error failure => rw [Except.error.inj hfails]

end CommandLine
end DevMachines
