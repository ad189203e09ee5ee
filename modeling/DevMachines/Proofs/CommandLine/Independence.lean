import DevMachines.Proofs.CommandLine.Aborting
import DevMachines.Proofs.Session.Alike

/-!
# What a run does besides its log

A run that has set its log up does the rest alike, whatever the log is and whatever has been logged
before: every command agrees with itself (`agrees_obey`), so two runs of one command come to the
same result, print the same, and leave the same files.

Main statement: `run_independentOfLog`.

## Why it is not enough that a log is none of the files of the command

A log that is opened makes a file where there was nothing.  If the path of the Vagrantfile leads
through that place, its directory was missing before and is no directory now, and the report of the
failure says which.  So no log may stand on the way to the Vagrantfile either, and
`not_sameReport_logOnTheWay` is a run in which one does.
-/

namespace DevMachines

open Session Activity

/-! ## Files in sessions that are alike -/

namespace Session

variable {c : Common} {s t : Session}

/-- Two sessions in which one file has been written in the same way stay alike. -/
theorem Alike.setFile (h : Alike c s t) {place : Place}
    (hplace : s.files.get? place ≠ some .directory) (octets : Text.Octets) :
    Alike c { s with files := s.files.set place (.file octets) }
      { t with files := t.files.set place (.file octets) } := by
  have hother : t.files.get? place ≠ some .directory := fun hsame =>
    hplace ((h.files.directory_iff place).mp hsame)
  have hs := FileTree.sameBut_set hplace octets
  have ht := FileTree.sameBut_set hother octets
  refine ⟨h.first, h.second, h.interruptPending, h.files.set hplace octets, ?_, ?_, ?_, ?_,
    h.output⟩
  · rintro other ⟨sinks, file, hsinks, hfile, hleads⟩
    exact h.firstLogs other ⟨sinks, file, hsinks, hfile, hs.destination_eq_ok_iff.mp hleads⟩
  · rintro other ⟨sinks, file, hsinks, hfile, hleads⟩
    exact h.secondLogs other ⟨sinks, file, hsinks, hfile, ht.destination_eq_ok_iff.mp hleads⟩
  · exact fun path hpath other hleads =>
      h.avoids path hpath other (hs.destination_eq_ok_iff.mp hleads)
  · intro path hpath other hleads hlog
    exact (h.clear path hpath other (hs.leadsThrough_iff.mp hleads) hlog).imp
      (FileTree.isSome_get?_set · _) (FileTree.isSome_get?_set · _)

end Session

namespace CommandLine

section Agree

variable {c : Common} {s t : Session}

/-- A file that can be written in both sessions, or in neither, is written alike. -/
theorem meet_writeFile {path : Path} (octets : Text.Octets) (h : Alike c s t)
    (hplace : t.files.writablePlace t.environment.workingDirectory path =
      s.files.writablePlace s.environment.workingDirectory path) :
    Meet c ((writeFile path octets).perform s) ((writeFile path octets).perform t) := by
  rw [writeFile]
  cases path.hasNul with
  | true => exact ⟨rfl, h⟩
  | false =>
    rw [if_neg Bool.false_ne_true, perform_bind_ok (perform_get s), perform_bind_ok (perform_get t)]
    rw [FileTree.write, FileTree.write, hplace]
    cases hwritable : s.files.writablePlace s.environment.workingDirectory path with
    | error fault => exact ⟨rfl, h⟩
    | ok place =>
      obtain ⟨-, hdirectory⟩ := FileTree.writablePlace_eq_ok hwritable
      exact ⟨rfl, h.setFile hdirectory octets⟩

theorem agrees_writeFile {path : Path} (hpath : c.writes path) (octets : Text.Octets) :
    Agrees c (writeFile path octets) (writeFile path octets) := by
  intro s t h
  refine meet_writeFile octets h ?_
  rw [h.workingDirectory]
  exact h.files.writablePlace_of_leadsThrough (h.clear path hpath)

/-! ## Printing -/

theorem agrees_printMarkup (columns : Nat) (markup : String) :
    Agrees c (printMarkup columns markup) (printMarkup columns markup) :=
  (agrees_orFail _ _).bind fun _ => agrees_print _

theorem agrees_printLong (markup : String) : Agrees c (printLong markup) (printLong markup) :=
  (agrees_orFail _ _).bind fun _ => agrees_print _

theorem agrees_printBanner (columns : Nat) :
    Agrees c (printBanner columns) (printBanner columns) :=
  (agrees_printMarkup columns _).bind fun _ => agrees_printMarkup columns _

theorem agrees_printSources (columns : Nat) (settings : Settings.MergedSettings) :
    Agrees c (printSources columns settings) (printSources columns settings) :=
  (agrees_orFail _ _).bind fun _ => agrees_print _

theorem agrees_reportFailure (columns : Nat) (failure : Failure) :
    Agrees c (reportFailure columns failure) (reportFailure columns failure) := by
  unfold reportFailure
  split
  · exact (agrees_printMarkup columns _).bind fun _ => agrees_pure 1
  · exact (agrees_printLong _).bind fun _ => agrees_pure 1
  · exact (agrees_printLong _).bind fun _ => agrees_pure 1
  · exact agrees_throw failure

/-! ## Commands -/

section Commands

variable {given given' : Option Path} (hreads : c.ReadsSettings given given') (columns : Nat)

include hreads

theorem agrees_runSettings (format : SettingsFormat) :
    Agrees c (runSettings columns given format) (runSettings columns given' format) := by
  refine (agrees_loadSettings hreads .errors).bind fun settings => ?_
  cases format with
  | json => exact (agrees_orFail _ _).bind fun _ => agrees_print _
  | yaml =>
    refine (agrees_printSources columns settings).bind fun _ => ?_
    exact agrees_ite (agrees_printMarkup columns _)
      (agrees_ite (agrees_throw _) (agrees_print _))

theorem agrees_runProfiles (format : ProfilesFormat) :
    Agrees c (runProfiles columns given format) (runProfiles columns given' format) :=
  (agrees_loadSettings hreads .nobody).bind fun settings =>
    (agrees_declareFrom settings format.audience).bind fun _ =>
      (agrees_orFail _ _).bind fun _ => agrees_print _

theorem agrees_wantedProfiles : Agrees c (wantedProfiles given) (wantedProfiles given') :=
  (agrees_loadSettings hreads .nobody).bind fun settings => agrees_declareFrom settings .errors

theorem agrees_runVagrantfile {output : Option String}
    (hwrites : ∀ name, output = some name → c.writes (Path.ofText name)) :
    Agrees c (runVagrantfile given output) (runVagrantfile given' output) := by
  rw [runVagrantfile_eq, runVagrantfile_eq]
  refine (agrees_wantedProfiles hreads).bind fun profiles => ?_
  cases output with
  | none => exact agrees_print _
  | some name =>
    exact (agrees_writeFile (hwrites name rfl) _).bind fun _ => agrees_tell .errors _

end Commands

/-! ## Making the user's own settings -/

/-- Both sessions find something under a path, or neither does. -/
theorem meet_isThere_bind {α : Type} {path : Path} {f g : Bool → Activity α} (h : Alike c s t)
    (hpath : c.reads path)
    (hf : ∀ answer, s.contains path = .ok answer → Meet c ((f answer).perform s)
      ((g answer).perform t)) :
    Meet c ((isThere path >>= f).perform s) ((isThere path >>= g).perform t) := by
  rw [perform_bind, perform_bind, perform_isThere, perform_isThere, h.workingDirectory,
    h.files.contains_eq (h.avoids path hpath)]
  cases hthere : s.files.contains s.environment.workingDirectory path with
  | error fault => exact ⟨rfl, h⟩
  | ok answer => exact hf answer hthere

theorem agrees_announce (columns : Nat) (path : Path) :
    Agrees c (announce columns path) (announce columns path) :=
  (agrees_printMarkup columns _).bind fun _ => (agrees_printMarkup columns _).bind fun _ =>
    (agrees_printMarkup columns _).bind fun _ => (agrees_printMarkup columns _).bind fun _ =>
      agrees_pure 0

/-- The copy itself comes to the same.  That the defaults are there settles that their directory is,
so it does not matter what stands on the way to the copy. -/
theorem meet_copy {columns : Nat} {root : Path} (h : Alike c s t)
    (hdefaults : c.reads (root.child Settings.defaultsName))
    (hthere : s.contains (root.child Settings.defaultsName) = .ok true) :
    let copy := readFile (root.child Settings.defaultsName) >>= fun octets =>
      writeFile (root.child Settings.overridesName) octets >>= fun _ =>
        announce columns (root.child Settings.overridesName)
    Meet c (copy.perform s) (copy.perform t) := by
  intro copy
  have hread := h.files.read_eq (h.avoids _ hdefaults) hthere
  rw [perform_bind, perform_bind, perform_readFile, perform_readFile, h.workingDirectory, hread]
  cases s.files.read s.environment.workingDirectory (root.child Settings.defaultsName) with
  | error fault => exact ⟨rfl, h⟩
  | ok octets =>
    have hwritten : Meet c
        ((writeFile (root.child Settings.overridesName) octets).perform s)
        ((writeFile (root.child Settings.overridesName) octets).perform t) := by
      refine meet_writeFile octets h ?_
      rw [h.workingDirectory]
      exact h.files.writablePlace_beside (by decide) hthere
    exact hwritten.bind fun _ => agrees_announce columns _

theorem agrees_runInit {given given' : Option Path} (hreads : c.ReadsSettings given given')
    (columns : Nat) (force : Bool) :
    Agrees c (runInit columns given force) (runInit columns given' force) := by
  rw [runInit_eq, runInit_eq]
  simp only [defaultsPath, overridesPath, bind_assoc, pure_bind]
  refine agrees_projectRoot_bind hreads.same fun root hroot =>
    agrees_projectRoot_bind hreads.same fun other hother => ?_
  obtain rfl : root = other := Except.ok.inj (hroot.symm.trans hother)
  obtain ⟨hdefaults, hoverrides⟩ := hreads.reads root hroot
  intro s t h
  refine meet_isThere_bind h hdefaults fun hasDefaults hthere => ?_
  cases hasDefaults with
  | false => exact ((agrees_printMarkup columns _).bind fun _ => agrees_pure 1) s t h
  | true =>
    refine meet_isThere_bind h hoverrides fun hasOverrides _ => ?_
    split
    · exact ((agrees_printMarkup columns _).bind fun _ =>
        (agrees_printMarkup columns _).bind fun _ => agrees_pure 1) s t h
    · exact meet_copy h hdefaults hthere

/-! ## The command and the report of its failure -/

theorem agrees_command {given given' : Option Path} {command : Command} (columns : Nat)
    (hreads : c.ReadsSettings given given')
    (hwrites : ∀ name, command = .vagrantfile (some name) → c.writes (Path.ofText name)) :
    Agrees c (command.run columns given) (command.run columns given') := by
  cases command with
  | settings format => exact (agrees_runSettings hreads columns format).bind fun _ => agrees_pure 0
  | profiles format => exact (agrees_runProfiles hreads columns format).bind fun _ => agrees_pure 0
  | vagrantfile output =>
    have hname : ∀ name, output = some name → c.writes (Path.ofText name) := by
      rintro name rfl
      exact hwrites name rfl
    exact (agrees_runVagrantfile hreads hname).bind fun _ => agrees_pure 0
  | init force => exact agrees_runInit hreads columns force

/-- **What a run does once it has been prepared does not depend on the log.** -/
theorem agrees_obey {given given' : Option Path} {command : Option Command} (columns : Nat)
    (hreads : command.isSome → c.ReadsSettings given given')
    (hwrites : ∀ name, command = some (.vagrantfile (some name)) → c.writes (Path.ofText name)) :
    Agrees c (obey columns given command) (obey columns given' command) := by
  cases command with
  | none =>
    exact (agrees_printBanner columns).bind fun _ => (agrees_print _).bind fun _ => agrees_pure _
  | some command =>
    have hrun := agrees_command columns (hreads rfl) fun name hname =>
      hwrites name (congrArg some hname)
    refine hrun.attempt.bind fun result => ?_
    cases result with
    | ok code => exact agrees_pure _
    | error failure => exact (agrees_reportFailure columns failure).bind fun _ => agrees_pure _

theorem agrees_bindContext (command : Option String) (root : String) :
    Agrees c (bindContext command root) (bindContext command root) :=
  fun _ _ h => ⟨rfl, h.of_eq (onlyLogs_of_files_eq rfl rfl rfl) (onlyLogs_of_files_eq rfl rfl rfl)
    rfl rfl rfl rfl⟩

end Agree

/-! ## What a run is about -/

/-- What a command line asks for besides its log. -/
def requested (words : List String) : Except Stopped (Option Path × Option Command) :=
  (Arguments.read words).map fun a => (a.root, a.command)

/-- Is a path that of a document that the command reads?  The user's own settings are one of them,
so they are not named again where they are written. -/
def Arguments.Reads (a : Arguments) (environment : Environment) (path : Path) : Prop :=
  a.command.isSome ∧ ∃ root, Settings.projectRoot environment a.root = .ok root ∧
    (path = root.child Settings.defaultsName ∨ path = root.child Settings.overridesName)

/-- Is a path that of the file that the command writes a Vagrantfile to? -/
def Arguments.Exports (a : Arguments) (path : Path) : Prop :=
  ∃ name, a.command = some (.vagrantfile (some name)) ∧ path = Path.ofText name

/-- Can the log of a run be opened, and is it none of the files that the command reads or writes, nor
on the way to one that is written? -/
structure Arguments.LogsApart (a : Arguments) (s : Session) : Prop where
  opens : a.log.Opens s
  reads : ∀ path, a.Reads s.environment path → s.Avoids (a.log.LeadsTo s) path
  exports : ∀ path, a.Exports path → ∀ place,
    s.files.LeadsThrough s.environment.workingDirectory path place → ¬ a.log.LeadsTo s place

/-- Is a place that of the log of a run? -/
def IsLogOf (words : List String) (s : Session) (place : Place) : Prop :=
  ∃ a, Arguments.read words = .ok a ∧ a.log.LeadsTo s place

/-! ## Once the logs have been set up -/

/-- What a run does once its log has been set up. -/
def proceed (columns : Nat) (given : Option Path) (command : Option Command) : Activity Exit := do
  let root ← projectRoot given
  bindContext (command.map Command.name) root.toText
  obey columns given command

theorem run_eq_configure_bind_proceed (columns : Nat) (a : Arguments) :
    a.run columns = configure a.log.level a.log.json a.log.file >>= fun _ =>
      proceed columns a.root a.command := by
  rw [run_eq_prepare_bind_obey, prepare, proceed]
  simp only [bind_assoc]

/-- A run whose log can be opened goes on in a session that differs in the log only. -/
theorem exists_perform_run (columns : Nat) {words : List String} {a : Arguments} {s : Session}
    (hread : Arguments.read words = .ok a) (hopens : a.log.Opens s) :
    ∃ t, Prepares a s t ∧ t.interruptPending = s.interruptPending ∧ t.output = s.output ∧
      (run columns words).perform s = (proceed columns a.root a.command).perform t := by
  obtain ⟨rank, hlevel⟩ := rankOfName_of_read hread
  have hrun : (run columns words).perform s = (configure a.log.level a.log.json a.log.file >>=
      fun _ => proceed columns a.root a.command).perform s := by
    rw [run, hread]
    exact congrArg (Activity.perform · s) (run_eq_configure_bind_proceed columns a)
  have hend := configureEnd_configure a.log s
  generalize hconfigure : (configure a.log.level a.log.json a.log.file).perform s = ready at hend
  cases hend with
  | failed failure t hfiles hcause =>
    rcases hcause with hcannot | ⟨fault, hfault⟩
    · exact absurd hopens hcannot
    · rw [hlevel] at hfault
      cases hfault
  | done threshold files hopened hsame =>
    rw [perform_bind_ok hconfigure] at hrun
    have hprepares := prepares_setUp hopened.sameBut threshold
    exact ⟨setUp a.log threshold files s, hprepares, rfl, rfl, hrun⟩

/-- What two runs of one command have in common. -/
def commonOf (a b : Arguments) (s t : Session) : Common where
  environment := s.environment
  other := s.environment
  home_eq := rfl
  workingDirectory_eq := rfl
  logs place := a.log.LeadsTo s place ∨ b.log.LeadsTo t place
  reads := a.Reads s.environment
  writes := a.Exports
  before := (s.output, t.output)

section Runs

variable {a b : Arguments} {s s' t t' : Session}

/-- Two runs of one command, in sessions that differ in what is logged, go on alike. -/
theorem alike_of_prepares (henvironment : t.environment = s.environment)
    (hfiles : t.files = s.files) (hroot : b.root = a.root) (hcommand : b.command = a.command)
    (hs : a.LogsApart s) (ht : b.LogsApart t) (hfirst : Prepares a s s') (hsecond : Prepares b t t')
    (hpending : t'.interruptPending = s'.interruptPending) (hs' : s'.output = s.output)
    (ht' : t'.output = t.output) : Alike (commonOf a b s t) s' t' := by
  refine ⟨hfirst.environment, hsecond.environment.trans henvironment, hpending, ?_, ?_, ?_, ?_, ?_,
    ⟨"", hs'.trans String.append_empty.symm, ht'.trans String.append_empty.symm⟩⟩
  · have hother : s.files.SameBut (b.log.LeadsTo t) t'.files := hfiles ▸ hsecond.files
    exact (hfirst.files.mono fun _ => Or.inl).symm.trans (hother.mono fun _ => Or.inr)
  · exact fun place hplace => Or.inl (hfirst.logs place hplace)
  · exact fun place hplace => Or.inr (hsecond.logs place hplace)
  · intro path hpath place hplace
    rw [hfirst.environment, hfirst.files.destination_eq_ok_iff] at hplace
    rintro (hlog | hlog)
    · exact hs.reads path hpath place hplace hlog
    · refine ht.reads path ?_ place ?_ hlog
      · rw [Arguments.Reads, hcommand, hroot, henvironment]
        exact hpath
      · rw [hfiles, henvironment]
        exact hplace
  · intro path hpath place hplace
    rw [hfirst.environment, hfirst.files.leadsThrough_iff] at hplace
    rintro (hlog | hlog)
    · exact absurd hlog (hs.exports path hpath place hplace)
    · refine absurd hlog (ht.exports path ?_ place ?_)
      · rw [Arguments.Exports, hcommand]
        exact hpath
      · rw [hfiles, henvironment]
        exact hplace

theorem readsSettings_commonOf (hcommand : a.command.isSome) :
    (commonOf a b s t).ReadsSettings a.root a.root :=
  ⟨rfl, fun root hroot =>
    ⟨⟨hcommand, root, hroot, Or.inl rfl⟩, ⟨hcommand, root, hroot, Or.inr rfl⟩⟩⟩

theorem agrees_proceed (columns : Nat) : Agrees (commonOf a b s t)
    (proceed columns a.root a.command) (proceed columns a.root a.command) := by
  refine agrees_projectRoot_bind rfl fun root _ => (agrees_bindContext _ _).bind fun _ => ?_
  exact agrees_obey columns readsSettings_commonOf fun name hname => ⟨name, hname, rfl⟩

end Runs

/-! ## Exports of profiles -/

/-- A session in which no log has been set up. -/
def unlogged (s : Session) : Session := { s with reporting := {} }

/-- Are these the profiles that a project declares?  They are asked for without a log. -/
def Declares (given : Option Path) (s : Session) (profiles : ProfileSet) : Prop :=
  ((wantedProfiles given).perform (unlogged s)).1 = .ok profiles

/-- A run that prints profiles successfully has come to print them. -/
theorem perform_runProfiles_of_obey {columns : Nat} {given : Option Path}
    {format : ProfilesFormat} {s t : Session}
    (h : (obey columns given (some (.profiles format))).perform s = (.ok (.code 0), t)) :
    (runProfiles columns given format).perform s = (.ok (), t) := by
  have hcommand := perform_run_of_obey h
  rcases hrun : (runProfiles columns given format).perform s with ⟨failure | done, u⟩
  · cases congrArg Prod.fst ((perform_bind_error hrun _).symm.trans hcommand)
  · obtain rfl : u = t := congrArg Prod.snd ((perform_bind_ok hrun _).symm.trans hcommand)
    rfl

/-- A text of profiles that is not for the reader of a table is all that is printed. -/
theorem output_runProfiles {columns : Nat} {given : Option Path} {format : ProfilesFormat}
    (haudience : format.audience = .errors) {s t : Session}
    (h : (runProfiles columns given format).perform s = (.ok (), t)) :
    ∃ profiles text, ((wantedProfiles given).perform s).1 = .ok profiles ∧
      format.text columns profiles = .ok text ∧ t.output = s.output ++ text := by
  have hwanted : runProfiles columns given format = wantedProfiles given >>= fun profiles =>
      orFail markupFailure (format.text columns profiles) >>= print := by
    rw [runProfiles, wantedProfiles, haudience, bind_assoc]
  have houtput := output_wantedProfiles given s
  rw [hwanted, perform_bind] at h
  generalize (wantedProfiles given).perform s = declared at h houtput
  obtain ⟨result, u⟩ := declared
  cases result with
  | error failure => cases congrArg Prod.fst h
  | ok profiles =>
    dsimp only at h
    cases htext : format.text columns profiles with
    | error fault =>
      rw [htext] at h
      cases congrArg Prod.fst h
    | ok text =>
      rw [htext, perform_bind_ok (perform_orFail_ok markupFailure text u)] at h
      obtain rfl := congrArg Prod.snd h
      exact ⟨profiles, text, rfl, htext, congrArg (· ++ text) houtput⟩

/-- **An export of profiles prints the export of what is declared**, and nothing else. -/
theorem output_of_proceed {columns : Nat} {a : Arguments} {format : ProfilesFormat}
    {s ready t : Session} (hcommand : a.command = some (.profiles format))
    (haudience : format.audience = .errors) (happart : a.LogsApart s) (hready : Prepares a s ready)
    (hpending : ready.interruptPending = s.interruptPending) (houtput : ready.output = s.output)
    (h : (proceed columns a.root a.command).perform ready = (.ok (.code 0), t)) :
    ∃ profiles text, Declares a.root s profiles ∧ format.text columns profiles = .ok text ∧
      t.output = s.output ++ text := by
  have hlook := perform_projectRoot a.root ready
  rw [proceed] at h
  cases hroot : Settings.projectRoot ready.environment a.root with
  | error fault =>
    rw [hroot] at hlook
    rw [perform_bind_error hlook] at h
    cases congrArg Prod.fst h
  | ok root =>
    rw [hroot] at hlook
    rw [perform_bind_ok hlook] at h
    let noted := ready.notedAll (Settings.projectRootEvents ready.environment a.root)
    have hobey : (obey columns a.root a.command).perform (bound a root noted) =
        (.ok (.code 0), t) := h
    rw [hcommand] at hobey
    obtain ⟨profiles, text, hprofiles, htext, hprinted⟩ :=
      output_runProfiles haudience (perform_runProfiles_of_obey hobey)
    have hbound : Prepares a s (bound a root noted) :=
      (hready.trans (onlyLogs_notedAll ready _)).trans
        (onlyLogs_bound a root noted)
    have hout : (bound a root noted).output = s.output :=
      (output_notedAll ready _).trans houtput
    refine ⟨profiles, text, ?_, htext, hprinted.trans (congrArg (· ++ text) hout)⟩
    -- beside this run stands one without a log
    let silent : Arguments := { a with log := {} }
    have hnowhere : ∀ place, ¬ silent.log.LeadsTo (unlogged s) place :=
      fun _ ⟨_, hfile, _⟩ => nomatch hfile
    have hsilent : Prepares silent (unlogged s) (unlogged s) :=
      ⟨rfl, .refl _ _, fun _ ⟨_, _, hsinks, _⟩ => nomatch hsinks⟩
    have hsilentApart : silent.LogsApart (unlogged s) :=
      ⟨nofun, fun _ _ _ _ => hnowhere _, fun _ _ _ _ => hnowhere _⟩
    have hsame : (unlogged s).interruptPending = (bound a root noted).interruptPending :=
      ((interruptPending_notedAll ready _).trans hpending).symm
    have halike := alike_of_prepares (a := a) (b := silent) (s := s) (t := unlogged s) rfl rfl rfl rfl
      happart hsilentApart hbound hsilent hsame hout rfl
    have hreads : (commonOf a silent s (unlogged s)).ReadsSettings a.root a.root :=
      readsSettings_commonOf (by rw [hcommand]; rfl)
    rw [Declares, (agrees_wantedProfiles hreads _ _ halike).1, hprofiles]

/-- Is a text the one that profiles are exported as, where they are not shown as a table? -/
def ProfilesFormat.Exports (format : ProfilesFormat) (profiles : ProfileSet) (text : String) :
    Prop :=
  (format = .json ∧ text = profiles.json ++ "\n") ∨ (format = .yaml ∧ text = profiles.yaml)

/-- A run that exports profiles prints exactly the export of the profiles that are declared. -/
theorem output_of_run (columns : Nat) {words : List String} {a : Arguments}
    {format : ProfilesFormat} {s : Session} (hread : Arguments.read words = .ok a)
    (hcommand : a.command = some (.profiles format)) (hformat : format ≠ .table)
    (happart : a.LogsApart s) (h : ((run columns words).perform s).1 = .ok (.code 0)) :
    ∃ profiles text, Declares a.root s profiles ∧ format.Exports profiles text ∧
      ((run columns words).perform s).2.output = s.output ++ text := by
  obtain ⟨ready, hready, hpending, houtput, hrun⟩ := exists_perform_run columns hread happart.opens
  have hresult : (proceed columns a.root a.command).perform ready =
      (.ok (.code 0), ((run columns words).perform s).2) := by
    rw [hrun] at h ⊢
    exact Prod.ext h rfl
  have haudience : format.audience = .errors := by
    cases format with
    | table => exact absurd rfl hformat
    | yaml | json => rfl
  obtain ⟨profiles, text, hprofiles, htext, hprinted⟩ :=
    output_of_proceed hcommand haudience happart hready hpending houtput hresult
  refine ⟨profiles, text, hprofiles, ?_, hprinted⟩
  cases format with
  | table => exact absurd rfl hformat
  | yaml => exact Or.inr ⟨rfl, (Except.ok.inj htext).symm⟩
  | json => exact Or.inl ⟨rfl, (Except.ok.inj htext).symm⟩

/-! ## Two runs -/

/-- Two command lines that ask for the same are both refused, in the same way, or both read. -/
theorem read_of_requested_eq {first second : List String} (h : requested second = requested first) :
    (∃ stopped, Arguments.read first = .error stopped ∧ Arguments.read second = .error stopped) ∨
    ∃ a b, Arguments.read first = .ok a ∧ Arguments.read second = .ok b ∧ b.root = a.root ∧
      b.command = a.command := by
  rw [requested, requested] at h
  generalize Arguments.read first = one at h
  generalize Arguments.read second = other at h
  cases one with
  | error stopped =>
    cases other with
    | error stopped' =>
      obtain rfl := Except.error.inj h
      exact Or.inl ⟨_, rfl, rfl⟩
    | ok b => cases h
  | ok a =>
    cases other with
    | error stopped => cases h
    | ok b =>
      obtain ⟨hroot, hcommand⟩ := Prod.mk.inj (Except.ok.inj h)
      exact Or.inr ⟨a, b, rfl, rfl, hroot, hcommand⟩

/-- A command line that is refused, or that asks for a description, only has that printed. -/
theorem perform_run_of_stopped {words : List String} {stopped : Stopped}
    (h : Arguments.read words = .error stopped) (columns : Nat) (s : Session) :
    let report := stopped.report moqtbox version columns
    (run columns words).perform s = (.ok (.early report.exitCode),
      { s with output := s.output ++ report.output, errors := s.errors ++ report.errors }) := by
  rw [run, h]
  rfl

/-- **A log never shows in what a run comes to**: two runs of one command, whatever they log and
whatever was set up for the log before, end in the same way, print the same, and leave the same
files but for their logs.  An export of profiles prints exactly that. -/
theorem run_independentOfLog (columns : Nat) {first second : List String} {s t : Session}
    (hrequested : requested second = requested first)
    (henvironment : t.environment = s.environment) (hfiles : t.files = s.files)
    (hpending : t.interruptPending = s.interruptPending)
    (hs : ∀ a, Arguments.read first = .ok a → a.LogsApart s)
    (ht : ∀ a, Arguments.read second = .ok a → a.LogsApart t) :
    let one := (run columns first).perform s
    let other := (run columns second).perform t
    other.1 = one.1 ∧
    (∃ text, one.2.output = s.output ++ text ∧ other.2.output = t.output ++ text) ∧
    (∀ place, ¬ IsLogOf first s place → ¬ IsLogOf second t place →
      other.2.files.get? place = one.2.files.get? place) ∧
    ∀ a format, Arguments.read first = .ok a → a.command = some (.profiles format) →
      format ≠ .table → one.1 = .ok (.code 0) →
      ∃ profiles text, Declares a.root s profiles ∧ format.Exports profiles text ∧
        one.2.output = s.output ++ text := by
  intro one other
  have hexports := fun a format (hread : Arguments.read first = .ok a)
      (hcommand : a.command = some (.profiles format)) (hformat : format ≠ .table) =>
    output_of_run columns hread hcommand hformat (hs a hread)
  rcases read_of_requested_eq hrequested with
    ⟨stopped, hfirst, hsecond⟩ | ⟨a, b, hfirst, hsecond, hroot, hcommand⟩
  · have hone : one = _ := perform_run_of_stopped hfirst columns s
    have hother : other = _ := perform_run_of_stopped hsecond columns t
    refine ⟨?_, ⟨(stopped.report moqtbox version columns).output, ?_, ?_⟩,
      fun place _ _ => ?_, hexports⟩
    · rw [hone, hother]
    · rw [hone]
    · rw [hother]
    · rw [hone, hother]
      exact congrArg (·.get? place) hfiles
  · have hapart := hs a hfirst
    have hapart' := ht b hsecond
    obtain ⟨s', hs', hspending, hsoutput, hone⟩ :=
      exists_perform_run columns hfirst hapart.opens
    obtain ⟨t', ht', htpending, htoutput, hother⟩ :=
      exists_perform_run columns hsecond hapart'.opens
    rw [hroot, hcommand] at hother
    have halike := alike_of_prepares henvironment hfiles hroot hcommand hapart hapart' hs' ht'
      (htpending.trans (hpending.trans hspending.symm)) hsoutput htoutput
    obtain ⟨hresult, hafter⟩ := agrees_proceed columns s' t' halike
    rw [← hone, ← hother] at hresult hafter
    refine ⟨hresult, hafter.output, fun place hfirstLog hsecondLog => ?_, hexports⟩
    refine hafter.files.get?_eq place ?_
    rintro (hlog | hlog)
    · exact hfirstLog ⟨a, hfirst, hlog⟩
    · exact hsecondLog ⟨b, hsecond, hlog⟩

/-- A session in a project that sets its workspace. -/
def ownProject : Session where
  environment := { home := "/home/tester", configuredRoot := none, workingDirectory := ⟨1, []⟩ }
  files := ⟨[(["settings.yml.example"], .file (Text.encode "moqt_workspace_path: /srv/w\n"))]⟩

/-- The words of an export without options for the log. -/
def quietExport : List String := ["profiles", "--format", "json"]

/-- The words of the same export with a log. -/
def talkativeExport : List String :=
  ["--log-level", "DEBUG", "--json-logs", "--log-file", "run.log", "profiles", "-f", "json"]

/-- A log in the working directory of the project is none of the two documents. -/
theorem avoids_ownProject {a : Arguments} {name : String} (hgiven : a.root = none)
    (hfile : a.log.file = some ⟨0, [name]⟩)
    (hleads : ownProject.files.destination ⟨1, []⟩ (logPath ownProject ⟨0, [name]⟩) = .ok [name])
    (hname : name ≠ Settings.defaultsName ∧ name ≠ Settings.overridesName) {path : Path}
    (hpath : a.Reads ownProject.environment path) :
    ownProject.Avoids (a.log.LeadsTo ownProject) path := by
  obtain ⟨-, root, hroot, hdocument⟩ := hpath
  rw [hgiven] at hroot
  obtain rfl : (⟨1, []⟩ : Path) = root := Except.ok.inj hroot
  rintro place hplace ⟨file, hlog, hlogPlace⟩
  obtain rfl := Option.some.inj (hfile.symm.trans hlog)
  obtain rfl := Except.ok.inj (hleads.symm.trans hlogPlace)
  rcases hdocument with rfl | rfl
  · exact hname.1 (List.head_eq_of_cons_eq (Except.ok.inj hplace)).symm
  · exact hname.2 (List.head_eq_of_cons_eq (Except.ok.inj hplace)).symm

theorem run_independentOfLog_talkativeExport :
    let earlier := { ownProject with reporting := { threshold := 10 } }
    let one := (run 80 quietExport).perform ownProject
    let other := (run 80 talkativeExport).perform earlier
    other.1 = one.1 ∧ other.2.output = one.2.output ∧
    ∀ place, place ≠ ["run.log"] → other.2.files.get? place = one.2.files.get? place := by
  intro earlier
  let quiet : Arguments := { command := some (.profiles .json) }
  let talkative : Arguments :=
    { log := { level := "DEBUG", json := true, file := some ⟨0, ["run.log"]⟩ }
      command := some (.profiles .json) }
  have hquiet : Arguments.read quietExport = .ok quiet := rfl
  have htalkative : Arguments.read talkativeExport = .ok talkative := rfl
  have hapart : ∀ a, Arguments.read quietExport = .ok a → a.LogsApart ownProject := by
    intro a hread
    obtain rfl := Except.ok.inj (hquiet.symm.trans hread)
    exact ⟨nofun, fun _ _ _ _ ⟨_, hfile, _⟩ => (nomatch hfile),
      fun _ ⟨_, hname, _⟩ => (nomatch hname)⟩
  have hapart' : ∀ a, Arguments.read talkativeExport = .ok a → a.LogsApart earlier := by
    intro a hread
    obtain rfl := Except.ok.inj (htalkative.symm.trans hread)
    refine ⟨?_, fun path hpath => ?_, fun _ ⟨_, hname, _⟩ => (nomatch hname)⟩
    · rintro file ⟨⟩
      exact ⟨by decide, _, rfl⟩
    · exact avoids_ownProject rfl rfl rfl (by decide) hpath
  have hrequested : requested talkativeExport = requested quietExport := rfl
  obtain ⟨hresult, ⟨text, hone, hother⟩, hfiles, -⟩ :=
    run_independentOfLog 80 (s := ownProject) (t := earlier) hrequested rfl rfl rfl hapart hapart'
  refine ⟨hresult, hother.trans hone.symm, fun place hplace => hfiles place ?_ ?_⟩
  · rintro ⟨a, hread, file, hfile, -⟩
    obtain rfl := Except.ok.inj (hquiet.symm.trans hread)
    cases hfile
  · rintro ⟨a, hread, file, hfile, hleads⟩
    obtain rfl := Except.ok.inj (htalkative.symm.trans hread)
    cases hfile
    exact hplace (Except.ok.inj hleads).symm

/-- The words of a run whose log stands where the directory of the Vagrantfile would be. -/
def logOnTheWay : List String := ["--log-file", "out", "vagrantfile", "--output", "out/Vagrantfile"]

theorem not_sameReport_logOnTheWay :
    let plain := logOnTheWay.drop 2
    requested logOnTheWay = requested plain ∧
    (∃ a, Arguments.read logOnTheWay = .ok a ∧ a.log.Opens ownProject ∧
      ∀ path, a.Reads ownProject.environment path ∨ a.Exports path →
        ownProject.Avoids (a.log.LeadsTo ownProject) path) ∧
    ((run 80 logOnTheWay).perform ownProject).2.output ≠
      ((run 80 plain).perform ownProject).2.output := by
  refine ⟨by decide +kernel, ?_, by decide +kernel⟩
  let a : Arguments :=
    { log := { file := some ⟨0, ["out"]⟩ }, command := some (.vagrantfile (some "out/Vagrantfile")) }
  refine ⟨a, rfl, ?_, ?_⟩
  · rintro file ⟨⟩
    exact ⟨by decide, _, rfl⟩
  · rintro path (hpath | ⟨name, hname, rfl⟩)
    · exact avoids_ownProject rfl rfl rfl (by decide) hpath
    · cases hname
      exact fun place hplace => (nomatch hplace)

end CommandLine
end DevMachines
