import DevMachines.Proofs.CommandLine.Changing
import DevMachines.Proofs.Log.Lines
import DevMachines.Proofs.Session.Records
import Mathlib.Data.List.Induction

/-!
# The command that the log names

Every record of a run should say which command the run is about.  The context of the log says so, and
it is set when the run has been prepared.  So a record names the command of its run if it is written
after that, and what is written before it carries the context of an earlier run of the same process,
or none.

Main statement: `run_namesCommand`, for every run of a process and whatever its earlier runs were.

## What is written before

Between the setting up of the log and the context there is only the look for the project root, whose
path the context is to have.  It reports where the root comes from if the environment names it
(`run_namesOtherCommand`), and nothing otherwise.  All that follows is the book-keeping of the
command (`Working`), no event of which has a command of its own.
-/

namespace DevMachines
namespace CommandLine

open Session Activity

/-! ## What commands do -/

/-- A relation that holds of everything that a command does to a session. -/
structure Working (R : Session → Session → Prop) : Prop extends Showing R where
  copied : ∀ (s : Session) source target octets files,
    s.files.read s.environment.workingDirectory source = .ok octets →
    s.files.write s.environment.workingDirectory target octets = .ok files → R s { s with files }
  exported : ∀ (s : Session) (profiles : ProfileSet) target files,
    s.files.write s.environment.workingDirectory target (Text.encode profiles.vagrantfile) =
      .ok files → R s { s with files }

/-- A file is written as a whole, or nothing changes. -/
theorem rel_writeFile {R : Session → Session → Prop} (hchain : IsChained R) {path : Path}
    {octets : Text.Octets} {s : Session}
    (h : ∀ files, s.files.write s.environment.workingDirectory path octets = .ok files →
      R s { s with files }) : R s ((writeFile path octets).perform s).2 := by
  unfold writeFile
  cases path.hasNul with
  | true => exact hchain.refl s
  | false =>
    rw [if_neg Bool.false_ne_true, perform_bind_ok (perform_get s)]
    cases hwrite : s.files.write s.environment.workingDirectory path octets with
    | error fault => exact hchain.refl s
    | ok files => exact h files hwrite

section Working

variable {R : Session → Session → Prop} (hR : Working R)

include hR

theorem keeps_isThere (path : Path) : Keeps R (isThere path) :=
  keeps_get_bind fun s => keeps_orFail hR.toShowing.isChained _ _ s

theorem keeps_copyFile (source target : Path) :
    Keeps R (readFile source >>= fun octets => writeFile target octets) := by
  intro s
  rw [perform_bind, perform_readFile]
  cases hread : s.files.read s.environment.workingDirectory source with
  | error fault => exact hR.toShowing.isChained.refl s
  | ok octets =>
    exact rel_writeFile hR.toShowing.isChained fun files hwrite =>
      hR.copied s source target octets files hread hwrite

theorem keeps_writeVagrantfile (profiles : ProfileSet) (path : Path) :
    Keeps R (writeFile path (Text.encode profiles.vagrantfile)) := fun s =>
  rel_writeFile hR.toShowing.isChained fun files hwrite =>
    hR.exported s profiles path files hwrite

theorem keeps_announce (columns : Nat) (path : Path) : Keeps R (announce columns path) := by
  have hchain := hR.toShowing.isChained
  have hprint := keeps_printMarkup hR.toShowing columns
  exact (hprint _).bind hchain fun _ => (hprint _).bind hchain fun _ =>
    (hprint _).bind hchain fun _ => (hprint _).bind hchain fun _ => keeps_pure hchain 0

theorem keeps_copyDefaults (columns : Nat) (force : Bool) (defaults overrides : Path) :
    Keeps R (copyDefaults columns force defaults overrides) := by
  have hchain := hR.toShowing.isChained
  have hprint := keeps_printMarkup hR.toShowing columns
  refine (keeps_isThere hR defaults).bind hchain fun hasDefaults => keeps_ite ?_ ?_
  · exact (hprint _).bind hchain fun _ => keeps_pure hchain 1
  · refine (keeps_isThere hR overrides).bind hchain fun hasOverrides => keeps_ite ?_ ?_
    · exact (hprint _).bind hchain fun _ => (hprint _).bind hchain fun _ => keeps_pure hchain 1
    · rw [← bind_assoc]
      exact (keeps_copyFile hR defaults overrides).bind hchain fun _ =>
        keeps_announce hR columns overrides

theorem keeps_runInit (columns : Nat) (given : Option Path) (force : Bool) :
    Keeps R (runInit columns given force) := by
  rw [runInit_eq]
  have hbooks := hR.bookkeeping .nobody
  exact (keeps_defaultsPath hbooks given).bind hbooks.toIsChained fun _ =>
    (keeps_overridesPath hbooks given).bind hbooks.toIsChained fun _ =>
      keeps_copyDefaults hR columns force _ _

theorem keeps_runVagrantfile (given : Option Path) (output : Option String) :
    Keeps R (runVagrantfile given output) := by
  have hchain := hR.toShowing.isChained
  rw [runVagrantfile_eq]
  refine (keeps_wantedProfiles hR.toShowing given).bind hchain fun profiles => ?_
  cases output with
  | none => exact keeps_print hR.toShowing _
  | some name =>
    exact (keeps_writeVagrantfile hR profiles _).bind hchain fun _ =>
      keeps_tell (hR.bookkeeping .errors) _

theorem keeps_commandRun (columns : Nat) (given : Option Path) (command : Command) :
    Keeps R (command.run columns given) := by
  have hchain := hR.toShowing.isChained
  have hthen : ∀ {a : Activity Unit}, Keeps R a → Keeps R (a >>= fun _ => pure 0) :=
    fun ha => ha.bind hchain fun _ => keeps_pure hchain 0
  cases command with
  | settings format => exact hthen (keeps_runSettings hR.toShowing columns given format)
  | profiles format => exact hthen (keeps_runProfiles hR.toShowing columns given format)
  | vagrantfile output => exact hthen (keeps_runVagrantfile hR given output)
  | init force => exact keeps_runInit hR columns given force

/-- **What a run does once it has been prepared keeps what its steps keep.** -/
theorem keeps_obey (columns : Nat) (given : Option Path) (command : Option Command) :
    Keeps R (obey columns given command) := by
  have hchain := hR.toShowing.isChained
  cases command with
  | none =>
    exact (keeps_printBanner hR.toShowing columns).bind hchain fun _ =>
      (keeps_print hR.toShowing _).bind hchain fun _ => keeps_pure hchain _
  | some command =>
    refine ((keeps_commandRun hR columns given command).attempt).bind hchain fun result => ?_
    cases result with
    | ok code => exact keeps_pure hchain _
    | error failure =>
      exact (keeps_reportFailure hR.toShowing columns failure).bind hchain fun _ =>
        keeps_pure hchain _

end Working

/-- **All that a command reports names the command of the context.** -/
theorem working_tellsCommand (name : String) : Working (TellsCommand name) where
  bookkeeping := bookkeeping_tellsCommand name
  printed _ _ := tellsCommand_nothing rfl rfl rfl
  copied s source target octets files hread hwrite :=
    ⟨rfl, fun _ => (WriteStep.copied s source target octets files hread hwrite).recordsOnly⟩
  exported s profiles target files hwrite :=
    ⟨rfl, fun _ => (WriteStep.exported s profiles target files hwrite).recordsOnly⟩

/-! ## Before the command begins -/

/-- Between two sessions no record is written, and the context stays. -/
structure OnlySetsUp (s t : Session) : Prop where
  environment : t.environment = s.environment
  context : t.reporting.context = s.reporting.context
  records : RecordsOnly (fun _ => False) s t

theorem onlySetsUp_nothing {s t : Session} (environment : t.environment = s.environment)
    (context : t.reporting.context = s.reporting.context) (errors : t.errors = s.errors)
    (files : t.files = s.files) : OnlySetsUp s t :=
  ⟨environment, context, recordsOnly_nothing errors files⟩

theorem isChained_onlySetsUp : IsChained OnlySetsUp where
  refl _ := onlySetsUp_nothing rfl rfl rfl rfl
  trans hst htu := ⟨htu.environment.trans hst.environment, htu.context.trans hst.context,
    hst.records.trans htu.records⟩

theorem keeps_openLogFile (file : Path) : Keeps OnlySetsUp (openLogFile file) := by
  have hchain := isChained_onlySetsUp
  unfold openLogFile
  refine keeps_ite (keeps_throw hchain _) (keeps_get_bind fun s => ?_)
  dsimp only
  cases hopen : s.files.append s.environment.workingDirectory
      (Path.absolute s.environment.workingDirectory file) [] with
  | error fault => exact hchain.refl s
  | ok files => exact ⟨rfl, rfl, (WriteStep.opened s _ files hopen).recordsOnly⟩

/-- Setting the logging up writes no record, however it ends. -/
theorem keeps_configure (level : String) (json : Bool) (file : Option Path) :
    Keeps OnlySetsUp (configure level json file) := by
  have hchain := isChained_onlySetsUp
  have hopened : Keeps OnlySetsUp (file.mapM openLogFile) := by
    cases file with
    | none => exact keeps_pure hchain none
    | some file =>
      exact (keeps_openLogFile file).bind hchain fun opened => keeps_pure hchain (some opened)
  have hsinks : ∀ file, Keeps OnlySetsUp (setSinks json file) := fun file =>
    keeps_modify fun _ => onlySetsUp_nothing rfl rfl rfl rfl
  refine hopened.bind hchain fun file => ?_
  split
  · exact (hsinks file).bind hchain fun _ =>
      keeps_modify fun _ => onlySetsUp_nothing rfl rfl rfl rfl
  · exact keeps_ite ((hsinks file).bind hchain fun _ => keeps_throw hchain _)
      (keeps_throw hchain _)

/-- The name of the command that a run is about. -/
def Arguments.commandName (a : Arguments) : String := (a.command.map Command.name).getD "help"

/-- The context of a run that has been prepared names its command. -/
theorem lookup_command_bound (a : Arguments) (root : Path) (s : Session) :
    (bound a root s).reporting.context.lookup "command" = some (.text a.commandName) := by
  unfold Arguments.commandName
  cases hcommand : a.command with
  | none =>
    unfold bound
    rw [hcommand]
    rfl
  | some command =>
    unfold bound
    rw [hcommand]
    cases command <;> rfl

/-- What preparing a run does once the log has been set up: it looks for the project root. -/
theorem perform_prepare_of_configure {a : Arguments} {s t : Session}
    (h : (configure a.log.level a.log.json a.log.file).perform s = (.ok (), t)) :
    (prepare a).perform s =
      let looked := t.notedAll (Settings.projectRootEvents t.environment a.root)
      match Settings.projectRoot t.environment a.root with
      | .ok root => (.ok (), bound a root looked)
      | .error fault => (.error (.home fault), looked) := by
  have hlook := perform_projectRoot a.root t
  unfold prepare
  rw [perform_bind_ok h]
  cases hroot : Settings.projectRoot t.environment a.root with
  | error fault =>
    rw [hroot] at hlook
    exact perform_bind_error hlook _
  | ok root =>
    rw [hroot] at hlook
    exact perform_bind_ok hlook _

/-- **Before the context is set, nothing is reported but where the project root comes from.** -/
theorem exists_of_prepare (a : Arguments) (s : Session) :
    ∃ t looked, OnlySetsUp s t ∧ looked <+: Settings.projectRootEvents s.environment a.root ∧
      ((∃ failure, (prepare a).perform s = (.error failure, t.notedAll looked)) ∨
        ∃ root, (prepare a).perform s = (.ok (), bound a root (t.notedAll looked))) := by
  have hsetUp := keeps_configure a.log.level a.log.json a.log.file s
  rcases hconfigure : (configure a.log.level a.log.json a.log.file).perform s with
    ⟨failure | done, t⟩
  · rw [hconfigure] at hsetUp
    exact ⟨t, [], hsetUp, List.nil_prefix, Or.inl ⟨failure, perform_bind_error hconfigure _⟩⟩
  · rw [hconfigure] at hsetUp
    refine ⟨t, _, hsetUp, List.prefix_refl _, ?_⟩
    rw [perform_prepare_of_configure hconfigure, ← hsetUp.environment]
    cases Settings.projectRoot t.environment a.root with
    | error fault => exact Or.inl ⟨_, rfl⟩
    | ok root => exact Or.inr ⟨root, rfl⟩

/-! ## One run after another -/

/-- A run of the program in a process: what it is asked for, and what surrounds it. -/
structure Turn where
  columns : Nat
  words : List String
  /-- The session that the run would begin in, if the process were new. -/
  session : Session

/-- The session that a run begins in, in a process whose reporting has come to a setup. -/
def Turn.start (setup : Log.Setup) (turn : Turn) : Session :=
  { turn.session with reporting := setup }

/-- A run in a process. -/
def Turn.take (setup : Log.Setup) (turn : Turn) : Except Failure Exit × Session :=
  (run turn.columns turn.words).perform (turn.start setup)

/-- The setup that the runs of a process leave behind. -/
def setupAfter (turns : List Turn) : Log.Setup :=
  turns.foldl (fun setup turn => (turn.take setup).2.reporting) {}

/-- Does a record name no command, or that of one of several runs? -/
def NamesCommandOf (turns : List Turn) (record : Log.Fields) : Prop :=
  record.lookup "command" = none ∨
    ∃ turn ∈ turns, ∃ a, Arguments.read turn.words = .ok a ∧ NamesCommand a.commandName record

theorem NamesCommandOf.mono {turns more : List Turn} {record : Log.Fields}
    (h : NamesCommandOf turns record) (hmore : ∀ turn ∈ turns, turn ∈ more) :
    NamesCommandOf more record := by
  rcases h with hnone | ⟨turn, hturn, a, hread, hnames⟩
  · exact Or.inl hnone
  · exact Or.inr ⟨turn, hmore turn hturn, a, hread, hnames⟩

/-- A run that cannot be read prints why, and that is all. -/
theorem perform_run_of_error (columns : Nat) {words : List String} {stopped : Stopped}
    (h : Arguments.read words = .error stopped) (s : Session) :
    let report := stopped.report moqtbox version columns
    (run columns words).perform s = (.ok (.early report.exitCode),
      { s with output := s.output ++ report.output, errors := s.errors ++ report.errors }) := by
  intro report
  rw [run, h]
  rfl

/-- **Once a run has been prepared, the context stays and every record names the command.** -/
theorem tellsCommand_of_prepare {setup : Log.Setup} {turn : Turn} {a : Arguments} {root : Path}
    {t : Session} (hread : Arguments.read turn.words = .ok a)
    (hprepare : (prepare a).perform (turn.start setup) = (.ok (), bound a root t)) :
    TellsCommand a.commandName (bound a root t) (turn.take setup).2 := by
  unfold Turn.take
  rw [perform_run_of_read turn.columns hread, perform_bind_ok hprepare]
  exact keeps_obey (working_tellsCommand a.commandName) turn.columns a.root a.command _

/-- A run leaves the context as it was, or one that names its own command. -/
theorem context_take (setup : Log.Setup) (turn : Turn) :
    (turn.take setup).2.reporting.context = setup.context ∨
      ∃ a, Arguments.read turn.words = .ok a ∧
        NamesCommand a.commandName (turn.take setup).2.reporting.context := by
  cases hread : Arguments.read turn.words with
  | error stopped =>
    unfold Turn.take
    rw [perform_run_of_error turn.columns hread]
    exact Or.inl rfl
  | ok a =>
    obtain ⟨t, looked, hsetUp, -, ⟨failure, hfailed⟩ | ⟨root, hdone⟩⟩ :=
      exists_of_prepare a (turn.start setup)
    · unfold Turn.take
      rw [perform_run_of_read turn.columns hread, perform_bind_error hfailed]
      left
      rw [reporting_notedAll, hsetUp.context]
      rfl
    · refine Or.inr ⟨a, rfl, ?_⟩
      rw [NamesCommand, (tellsCommand_of_prepare hread hdone).context]
      exact lookup_command_bound a root _

/-- **The context that runs leave behind names no command, or that of one of them.** -/
theorem namesCommandOf_setupAfter (turns : List Turn) :
    NamesCommandOf turns (setupAfter turns).context := by
  induction turns using List.reverseRecOn with
  | nil => exact Or.inl rfl
  | append_singleton turns turn ih =>
    have hafter : setupAfter (turns ++ [turn]) = (turn.take (setupAfter turns)).2.reporting := by
      unfold setupAfter
      rw [List.foldl_append]
      rfl
    rw [hafter]
    rcases context_take (setupAfter turns) turn with hsame | ⟨a, hread, hnames⟩
    · rw [hsame]
      exact ih.mono fun _ => List.mem_append_left _
    · exact Or.inr ⟨turn, List.mem_append_right _ (List.mem_singleton_self _), a, hread, hnames⟩

/-- The look for the project root is reported with the context as it is. -/
theorem recordsOnly_lookForRoot {turns : List Turn} {t : Session} {looked : List Log.Event}
    {environment : Environment} {given : Option Path}
    (hlooked : looked <+: Settings.projectRootEvents environment given)
    (hcontext : NamesCommandOf turns t.reporting.context) :
    RecordsOnly (NamesCommandOf turns) t (t.notedAll looked) := by
  have hreported : ∀ e ∈ looked, IsReported e := fun e he => .root (hlooked.subset he)
  clear hlooked
  induction looked generalizing t with
  | nil => exact .refl t
  | cons e looked ih =>
    rw [List.forall_mem_cons] at hreported
    rw [notedAll_cons]
    refine (recordsOnly_noted ?_).trans (ih ?_ hreported.2)
    · have hcommand := hreported.1.lookup_command t.reporting.context t.time
      rcases hcontext with hnone | ⟨turn, hturn, a, hread, hnames⟩
      · exact Or.inl (by rw [hcommand, hnone]; rfl)
      · refine Or.inr ⟨turn, hturn, a, hread, ?_⟩
        rw [NamesCommand, hcommand, hnames]
        rfl
    · rw [show t.noted e = t.notedAll [e] from rfl, reporting_notedAll]
      exact hcontext

/-- **Every record of a run names the command of the run, but for one.**  A run that cannot be read
writes none.  Any other writes none until it looks for the project root; that look is reported
before there is a context, so if the environment names the root, its record names no command or the
one of an earlier run; and every other record of the run names the command of the run. -/
theorem run_namesCommand (earlier : List Turn) (turn : Turn) :
    let s := turn.start (setupAfter earlier)
    let after := (turn.take (setupAfter earlier)).2
    (∀ stopped, Arguments.read turn.words = .error stopped → after.files = s.files ∧
      after.errors = s.errors ++ (stopped.report moqtbox version turn.columns).errors) ∧
    ∀ a, Arguments.read turn.words = .ok a →
      let looks := Settings.projectRootEvents s.environment a.root
      (∃ t looked, RecordsOnly (fun _ => False) s t ∧ looked <+: looks ∧
        RecordsOnly (NamesCommandOf earlier) t (t.notedAll looked) ∧
        RecordsOnly (NamesCommand a.commandName) (t.notedAll looked) after) ∧
      (looks = [] → RecordsOnly (NamesCommand a.commandName) s after) := by
  intro s after
  constructor
  · intro stopped hread
    have hrun : after = _ := congrArg Prod.snd (perform_run_of_error turn.columns hread s)
    rw [hrun]
    exact ⟨rfl, rfl⟩
  · intro a hread looks
    obtain ⟨t, looked, hsetUp, hlooked, hprepare⟩ := exists_of_prepare a s
    have hcontext : NamesCommandOf earlier t.reporting.context := by
      rw [hsetUp.context]
      exact namesCommandOf_setupAfter earlier
    have hbegin := recordsOnly_lookForRoot hlooked hcontext
    have hrest : RecordsOnly (NamesCommand a.commandName) (t.notedAll looked) after := by
      rcases hprepare with ⟨failure, hfailed⟩ | ⟨root, hdone⟩
      · have hafter : after =
            ((prepare a >>= fun _ => obey turn.columns a.root a.command).perform s).2 :=
          congrArg Prod.snd (perform_run_of_read turn.columns hread s)
        rw [hafter, perform_bind_error hfailed]
        exact .refl _
      · have hbound : RecordsOnly (NamesCommand a.commandName) (t.notedAll looked)
            (bound a root (t.notedAll looked)) := recordsOnly_nothing rfl rfl
        exact hbound.trans
          ((tellsCommand_of_prepare hread hdone).records (lookup_command_bound a root _))
    refine ⟨⟨t, looked, hsetUp.records, hlooked, hbegin, hrest⟩, fun hnone => ?_⟩
    obtain rfl : looked = [] := List.prefix_nil.mp (hnone ▸ hlooked)
    exact (hsetUp.records.mono fun _ h => h.elim).trans hrest

/-! ### A record that names the command of an earlier run -/

/-- A project whose root is named by the environment. -/
def namedProject : Session where
  environment := { home := "/home/tester", configuredRoot := some "p", workingDirectory := ⟨1, []⟩ }
  files := ⟨[(["p"], .directory),
    (["p", "settings.yml.example"], .file (Text.encode "moqt_workspace_path: /srv/w\n"))]⟩
  time := "2000-01-01T00:00:00.000000Z"

/-- A run in that project that writes every record on standard error. -/
def talkative (command : List String) (files : FileTree) : Turn :=
  ⟨80, "--log-level" :: "DEBUG" :: command, { namedProject with files }⟩

/-- A run that makes the user's own settings. -/
def talkativeInit : Turn := talkative ["init"] namedProject.files

/-- A run that shows the profiles, after it. -/
def talkativeProfiles : Turn :=
  talkative ["profiles", "--format", "json"] (talkativeInit.take {}).2.files

/-- The look for the root of that project. -/
def lookForNamedRoot : Log.Event := ⟨.debug, "project_root_from_env", [("root", .text "p")]⟩

/-- Such a run begins with a record of the look for the project root, which has the context that an
earlier run left behind, and it leaves a context of its own. -/
theorem take_talkative (words : List String) (files : FileTree) (setup : Log.Setup)
    {command : Command} {line : String}
    (hread : Arguments.read (talkative words files).words =
      .ok ⟨none, { level := "DEBUG" }, some command⟩)
    (hline : Log.line (.readable false)
      (Log.plainRecord setup.context namedProject.time lookForNamedRoot) = .ok line) :
    let after := ((talkative words files).take setup).2
    (∃ rest, after.errors = line ++ "\n" ++ rest) ∧
      after.reporting.context = [("command", .text command.name), ("root", .text "p")] := by
  let start := (talkative words files).start setup
  let t := setUp { level := "DEBUG" } 10 files start
  let looked := t.noted lookForNamedRoot
  have hconfigure : (configure "DEBUG" false none).perform start = (.ok (), t) := by
    have hlevel : Log.rankOfName "DEBUG" = .ok 10 := by decide +kernel
    unfold configure
    rw [hlevel]
    rfl
  have hprepare : (prepare ⟨none, { level := "DEBUG" }, some command⟩).perform start =
      (.ok (), bound ⟨none, { level := "DEBUG" }, some command⟩ (Path.ofText "p") looked) := by
    have hroot : Settings.projectRoot namedProject.environment none = .ok (Path.ofText "p") := by
      decide +kernel
    have henvironment : t.environment = namedProject.environment := rfl
    rw [perform_prepare_of_configure (a := ⟨none, { level := "DEBUG" }, some command⟩) hconfigure,
      henvironment, hroot]
    rfl
  have hlooked : looked.errors = line ++ "\n" := by
    have hwritten : looked.errors = (writeOnErrors (.readable false)
        (Log.plainRecord setup.context namedProject.time lookForNamedRoot) t).errors := rfl
    rw [hwritten, writeOnErrors, hline]
    exact String.empty_append
  have htells := tellsCommand_of_prepare hread hprepare
  obtain ⟨rest, hrest⟩ := (htells.records (lookup_command_bound _ _ _)).exists_errors_append
  refine ⟨⟨rest, hrest.trans (congrArg (· ++ rest) hlooked)⟩, htells.context.trans ?_⟩
  have hname : (Path.ofText "p").toText = "p" := by decide +kernel
  show [("command", _), ("root", Value.text (Path.ofText "p").toText)] = _
  rw [hname]
  cases command <;> rfl

theorem run_namesOtherCommand :
    (Arguments.read talkativeInit.words).map Arguments.commandName = .ok "init" ∧
    (Arguments.read talkativeProfiles.words).map Arguments.commandName = .ok "profiles" ∧
    (∃ rest, (talkativeInit.take {}).2.errors =
      "2000-01-01T00:00:00.000000Z [debug    ] project_root_from_env          root=p" ++
        "\n" ++ rest) ∧
    ∃ rest, (talkativeProfiles.take (setupAfter [talkativeInit])).2.errors =
      ("2000-01-01T00:00:00.000000Z [debug    ] project_root_from_env          " ++
        "command=init root=p") ++ "\n" ++ rest := by
  have hfirst : Log.line (.readable false)
      (Log.plainRecord [] namedProject.time lookForNamedRoot) = .ok
        "2000-01-01T00:00:00.000000Z [debug    ] project_root_from_env          root=p" := by
    have hrecord : Log.plainRecord [] namedProject.time lookForNamedRoot =
        [("root", .text "p"), ("event", .text "project_root_from_env"), ("level", .text "debug"),
          ("timestamp", .text "2000-01-01T00:00:00.000000Z")] := rfl
    have hsorted : Log.sortByName (Log.plainRecord [] namedProject.time lookForNamedRoot) =
        [("event", .text "project_root_from_env"), ("level", .text "debug"), ("root", .text "p"),
          ("timestamp", .text "2000-01-01T00:00:00.000000Z")] := by
      rw [hrecord]
      exact Log.sortByName_eq (@List.perm_middle _ _ [_, _] [_]) (by decide)
    rw [Log.line, Log.readableLine, hsorted, hrecord]
    decide +kernel
  have hsecond : Log.line (.readable false)
      (Log.plainRecord [("command", .text "init"), ("root", .text "p")] namedProject.time
        lookForNamedRoot) = .ok
        ("2000-01-01T00:00:00.000000Z [debug    ] project_root_from_env          " ++
          "command=init root=p") := by
    have hrecord : Log.plainRecord [("command", .text "init"), ("root", .text "p")]
        namedProject.time lookForNamedRoot =
        [("command", .text "init"), ("root", .text "p"), ("event", .text "project_root_from_env"),
          ("level", .text "debug"), ("timestamp", .text "2000-01-01T00:00:00.000000Z")] := rfl
    have hsorted : Log.sortByName (Log.plainRecord [("command", .text "init"),
        ("root", .text "p")] namedProject.time lookForNamedRoot) =
        [("command", .text "init"), ("event", .text "project_root_from_env"),
          ("level", .text "debug"), ("root", .text "p"),
          ("timestamp", .text "2000-01-01T00:00:00.000000Z")] := by
      rw [hrecord]
      exact Log.sortByName_eq (.cons _ (@List.perm_middle _ _ [_, _] [_])) (by decide)
    rw [Log.line, Log.readableLine, hsorted, hrecord]
    decide +kernel
  have hinit : Arguments.read talkativeInit.words =
      .ok ⟨none, { level := "DEBUG" }, some (.init false)⟩ := by
    decide +kernel
  have hprofiles : Arguments.read talkativeProfiles.words =
      .ok ⟨none, { level := "DEBUG" }, some (.profiles .json)⟩ := by
    decide +kernel
  obtain ⟨hrecords, hcontext⟩ := take_talkative ["init"] namedProject.files {} hinit hfirst
  rw [← show talkativeInit = talkative ["init"] namedProject.files from rfl] at hrecords hcontext
  refine ⟨by rw [hinit]; rfl, by rw [hprofiles]; rfl, hrecords, ?_⟩
  have hsetup : (setupAfter [talkativeInit]).context =
      [("command", .text "init"), ("root", .text "p")] := by
    unfold setupAfter
    rw [List.foldl_cons, List.foldl_nil]
    exact hcontext
  rw [← hsetup] at hsecond
  have hagain := (take_talkative ["profiles", "--format", "json"] (talkativeInit.take {}).2.files
    (setupAfter [talkativeInit]) hprofiles hsecond).1
  rw [← show talkativeProfiles =
    talkative ["profiles", "--format", "json"] (talkativeInit.take {}).2.files from rfl] at hagain
  exact hagain

end CommandLine
end DevMachines
