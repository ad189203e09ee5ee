import DevMachines.Proofs.CommandLine.Independence

/-!
# Two ways to name the project root

A project root can be given on the command line or be named by the surroundings, and a run cannot tell
which: it ends in the same way, prints the same, and leaves the same files, but for its log.

Main statement: `run_rootEitherWay`.

## Why the log is left out

That the surroundings have named the root is an event of its own, and a log may have a record of it.
The log itself is opened in the same way in both runs, so there is something in its place from then
on in both or in neither, and no path that leads through that place comes to another end.
-/

namespace DevMachines
namespace CommandLine

open Session Activity

/-! ## Giving the root on the command line -/

/-- Do words say what the rest of them says, and name a project root besides? -/
def AddsRoot (root : String) (rest words : List String) : Prop :=
  Arguments.read words =
    (Arguments.read rest).map fun a => { a with root := some (Path.ofText root) }

/-- Do words name no project root? -/
def NamesNoRoot (words : List String) : Prop :=
  ∀ line, readLine moqtbox words = .ok line → isGiven "--root" line.given = false

/-- Is an option the one for the project root?  It takes any value. -/
structure IsRootOption (o : CommandOption) : Prop where
  found : (optionNames moqtbox.options).lookup "--root" = some o
  key : o.key = "--root"
  role : o.role = .setting
  value : ∃ v, o.value = some v ∧ v.choices = []

theorem exists_isRootOption : ∃ o, IsRootOption o :=
  ⟨_, rfl, rfl, rfl, _, rfl, rfl⟩

theorem IsRootOption.perform {o : CommandOption} (h : IsRootOption o) (root : String) :
    CommandLine.perform o (some root) = .ok ⟨"--root", some root⟩ := by
  obtain ⟨v, hvalue, hchoices⟩ := h.value
  simp only [CommandLine.perform, h.role, hvalue, hchoices, List.isEmpty_nil, Bool.true_or, if_true,
    h.key]

/-- A word with the option and its value is that option. -/
theorem wordKind_attached {o : CommandOption} (h : IsRootOption o) (root : String) :
    wordKind moqtbox.options ("--root=" ++ root) =
      .ok (.option "--root" o (some ⟨true, root.toList⟩)) := by
  have hchars : ("--root=" ++ root).toList = "--root=".toList ++ root.toList :=
    String.toList_append
  have hcut : cutAtEquals ("--root=" ++ root).toList = ("--root".toList, some root.toList) := by
    rw [hchars]
    rfl
  have hlookup : (optionNames moqtbox.options).lookup ("--root=" ++ root) = none := by
    have hnames : ∀ p ∈ optionNames moqtbox.options, '=' ∉ p.1.toList := by decide +kernel
    rw [List.lookup_eq_none_iff]
    intro p hp
    rw [bne_iff_ne]
    intro hname
    refine hnames p hp ?_
    rw [← hname, hchars]
    exact List.mem_append_left _ (by decide)
  have hdivider : "--root=" ++ root ≠ "--" := by
    intro hword
    have hlength := congrArg (·.toList.length) hword
    simp only [hchars, List.length_append] at hlength
    have hseven : "--root=".toList.length = 7 := rfl
    have htwo : "--".toList.length = 2 := rfl
    omega
  have hhyphen : ("--root=" ++ root).toList.head? = some '-' := by
    rw [hchars]
    rfl
  have hlength : ("--root=" ++ root).toList.length ≠ 1 := by
    rw [hchars, List.length_append]
    have hseven : "--root=".toList.length = 7 := rfl
    omega
  rw [wordKind, if_neg hdivider, if_neg (not_not_intro hhyphen), hlookup]
  dsimp only
  rw [if_neg hlength, hcut]
  dsimp only
  rw [String.ofList_toList, h.found]

/-- What is read has another option in front. -/
def Reading.withFirst (g : Given) (r : Reading) : Reading := { r with given := g :: r.given }

/-- The option takes what is behind the equals sign. -/
theorem readAttached_root {o : CommandOption} (h : IsRootOption o) (root : String) :
    readAttached moqtbox.options "--root" o true root.toList =
      .ok { options := [(o, some root)] } := by
  obtain ⟨v, hvalue, -⟩ := h.value
  have hsome : o.value.isSome = true := by
    rw [hvalue]
    rfl
  cases hchars : root.toList with
  | nil =>
    obtain rfl := String.toList_eq_nil_iff.mp hchars
    rw [readAttached, if_pos hsome]
  | cons letter rest =>
    rw [readAttached, if_pos hsome, ← hchars, String.ofList_toList]

theorem readWords_attached {o : CommandOption} (h : IsRootOption o) (root word : String) (fuel : Nat)
    (words : List Word) :
    readWords moqtbox.options true (fuel + 1)
        ((word, .option "--root" o (some ⟨true, root.toList⟩)) :: words) =
      (readWords moqtbox.options true fuel words).map (Reading.withFirst ⟨"--root", some root⟩) := by
  rw [readWords, readCluster, readAttached_root h]
  simp only [Except.mapError, bind, Except.bind, pure, Except.pure, List.append_nil, List.mapM_cons,
    List.mapM_nil, h.perform]
  cases readWords moqtbox.options true fuel words <;> rfl

theorem readWords_apart {o : CommandOption} (h : IsRootOption o) (root word : String) (fuel : Nat)
    (words : List Word) :
    readWords moqtbox.options true (fuel + 1)
        ((word, .option "--root" o none) :: (root, .argument) :: words) =
      (readWords moqtbox.options true fuel words).map (Reading.withFirst ⟨"--root", some root⟩) := by
  obtain ⟨v, hvalue, -⟩ := h.value
  rw [readWords, readCluster]
  simp only [Except.mapError, bind, Except.bind, pure, Except.pure, takeValue, hvalue,
    Option.isNone_some, Bool.false_eq_true, if_false, List.nil_append, List.mapM_cons,
    List.mapM_nil, h.perform]
  cases readWords moqtbox.options true fuel words <;> rfl

theorem length_takeValue {o : CommandOption} {words left : List Word} {value : Option String}
    (h : takeValue o words = .ok (value, left)) : left.length ≤ words.length := by
  unfold takeValue at h
  split at h
  · obtain ⟨-, rfl⟩ := Prod.mk.inj (Except.ok.inj h)
    exact Nat.le_refl _
  · split at h
    · obtain ⟨-, rfl⟩ := Prod.mk.inj (Except.ok.inj h)
      exact Nat.le_succ _
    · cases h

/-- More fuel than there are words changes nothing. -/
theorem readWords_fuel {options : List CommandOption} {takesCommand : Bool} {fuel fuel' : Nat}
    {words : List Word} (h : words.length < fuel) (h' : words.length < fuel') :
    readWords options takesCommand fuel words = readWords options takesCommand fuel' words := by
  induction fuel generalizing fuel' words with
  | zero => exact absurd h (Nat.not_lt_zero _)
  | succ fuel ih =>
    obtain ⟨fuel', rfl⟩ := Nat.exists_eq_succ_of_ne_zero (Nat.ne_zero_of_lt h')
    cases words with
    | nil => rfl
    | cons first rest =>
      obtain ⟨word, kind⟩ := first
      have hrest : ∀ left : List Word, left.length ≤ rest.length →
          readWords options takesCommand fuel left = readWords options takesCommand fuel' left := by
        intro left hleft
        exact ih (Nat.lt_of_le_of_lt hleft (Nat.lt_of_succ_lt_succ h))
          (Nat.lt_of_le_of_lt hleft (Nat.lt_of_succ_lt_succ h'))
      cases kind with
      | unknownOption => rw [readWords, readWords, hrest rest (Nat.le_refl _)]
      | argument => rw [readWords, readWords, hrest rest (Nat.le_refl _)]
      | divider => rw [readWords, readWords]
      | option name o attached =>
        rw [readWords, readWords]
        cases (readCluster options name o attached).mapError Stop.fault with
        | error stop => rfl
        | ok cluster =>
          simp only [bind, Except.bind]
          cases cluster.last with
          | none =>
            dsimp only [pure, Except.pure]
            rw [hrest rest (Nat.le_refl _)]
          | some last =>
            dsimp only
            cases htake : takeValue last rest with
            | error fault => rfl
            | ok taken =>
              obtain ⟨value, left⟩ := taken
              dsimp only [Except.mapError, pure, Except.pure]
              rw [hrest left (length_takeValue htake)]

/-- The words that give a project root in front of others. -/
inductive GivesRoot (root : String) (rest : List String) : List String → Prop
  | attached : GivesRoot root rest (("--root=" ++ root) :: rest)
  /-- In a word of its own, a root must not be taken for an option. -/
  | apart (h : wordKind moqtbox.options root = .ok .argument) :
      GivesRoot root rest ("--root" :: root :: rest)

theorem readPart_givesRoot {root : String} {rest words : List String}
    (h : GivesRoot root rest words) :
    readPart moqtbox.options true words =
      (readPart moqtbox.options true rest).map (Reading.withFirst ⟨"--root", some root⟩) := by
  obtain ⟨o, ho⟩ := exists_isRootOption
  cases h with
  | attached =>
    rw [readPart, readPart, wordKinds, wordKind_attached ho]
    simp only [bind, Except.bind, pure, Except.pure]
    cases wordKinds moqtbox.options rest with
    | error fault => rfl
    | ok kinds => exact readWords_attached ho root _ _ kinds
  | apart hroot =>
    have hname : wordKind moqtbox.options "--root" = .ok (.option "--root" o none) := by
      rw [wordKind, if_neg (by decide), if_neg (by decide), ho.found]
    rw [readPart, readPart, wordKinds, hname, wordKinds, hroot]
    simp only [bind, Except.bind, pure, Except.pure]
    cases wordKinds moqtbox.options rest with
    | error fault => rfl
    | ok kinds =>
      refine (readWords_apart ho root _ _ kinds).trans (congrArg _ ?_)
      exact readWords_fuel (Nat.lt_succ_of_lt (Nat.lt_succ_self _)) (Nat.lt_succ_self _)

theorem readLine_givesRoot {root : String} {rest words : List String}
    (h : GivesRoot root rest words) :
    readLine moqtbox words = (readLine moqtbox rest).map fun line =>
      { line with given := ⟨"--root", some root⟩ :: line.given } := by
  rw [readLine, readLine, readPart_givesRoot h]
  cases readPart moqtbox.options true rest with
  | error stop => rfl
  | ok r =>
    simp only [Except.map, Except.mapError, bind, Except.bind, Reading.withFirst]
    cases r.command with
    | none =>
      dsimp only [refuseExtras]
      split <;> rfl
    | some command =>
      dsimp only
      cases moqtbox.commands.find? (·.name == command.1) with
      | none => rfl
      | some form =>
        dsimp only
        cases readPart form.options false command.2 with
        | error stop => rfl
        | ok inner =>
          dsimp only [refuseExtras]
          split <;> rfl

/-- Without any other, an option in front has the last value. -/
theorem lastValue?_cons_self {name value : String} {given : List Given}
    (h : isGiven name given = false) : lastValue? name (⟨name, some value⟩ :: given) = some value := by
  have hothers : given.reverse.find? (·.name == name) = none := by
    rw [List.find?_eq_none]
    intro g hg hname
    have hgiven : isGiven name given = true :=
      List.any_eq_true.mpr ⟨g, List.mem_reverse.mp hg, hname⟩
    rw [h] at hgiven
    cases hgiven
  rw [lastValue?, List.reverse_cons, List.find?_append, hothers]
  simp

theorem lastValue?_cons_of_ne {name : String} {g : Given} (h : g.name ≠ name) (given : List Given) :
    lastValue? name (g :: given) = lastValue? name given := by
  rw [lastValue?, lastValue?, List.reverse_cons, List.find?_append]
  simp [h]

theorem isGiven_cons_of_ne {name : String} {g : Given} (h : g.name ≠ name) (given : List Given) :
    isGiven name (g :: given) = isGiven name given := by
  simp [isGiven, h]

/-- **Words that give a project root add it to what the others say.** -/
theorem addsRoot_of_givesRoot {root : String} {rest words : List String}
    (h : GivesRoot root rest words) (hrest : NamesNoRoot rest) : AddsRoot root rest words := by
  rw [AddsRoot, Arguments.read, Arguments.read, readLine_givesRoot h]
  cases hline : readLine moqtbox rest with
  | error stopped => rfl
  | ok line =>
    have hlevel : "--root" ≠ "--log-level" := by decide
    have hfile : "--root" ≠ "--log-file" := by decide
    have hjson : "--root" ≠ "--json-logs" := by decide
    simp only [Except.map, Arguments.ofLine, lastValue?_cons_self (hrest line hline)]
    rw [lastValue?_cons_of_ne hlevel, lastValue?_cons_of_ne hfile, isGiven_cons_of_ne hjson]
    rfl

/-- Words that name no root are read as giving none. -/
theorem NamesNoRoot.root_eq_none {words : List String} (h : NamesNoRoot words) {a : Arguments}
    (hread : Arguments.read words = .ok a) : a.root = none := by
  rw [Arguments.read] at hread
  cases hline : readLine moqtbox words with
  | error stopped =>
    rw [hline] at hread
    cases hread
  | ok line =>
    rw [hline] at hread
    obtain rfl := Except.ok.inj hread
    have hlast : lastValue? "--root" line.given = none := by
      cases hvalue : lastValue? "--root" line.given with
      | none => rfl
      | some value =>
        obtain ⟨g, hg, hname, -⟩ := exists_of_lastValue? hvalue
        have hgiven : isGiven "--root" line.given = true :=
          List.any_eq_true.mpr ⟨g, hg, beq_iff_eq.mpr hname⟩
        rw [h line hline] at hgiven
        cases hgiven
    exact congrArg (Option.map Path.ofText) hlast

/-! ## Surroundings that name the root -/

/-- A session whose surroundings name a project root. -/
def withRoot (root : String) (s : Session) : Session :=
  { s with environment := { s.environment with configuredRoot := some root } }

/-- **A root that is named is the same as one that is given**, unless it is empty. -/
theorem projectRoot_withRoot {root : String} (hroot : root ≠ "") (s : Session) :
    Settings.projectRoot (withRoot root s).environment none =
      Settings.projectRoot s.environment (some (Path.ofText root)) := by
  have hempty : ¬ root.isEmpty = true := fun h => hroot (String.isEmpty_iff.mp h)
  have hnamed : Settings.environmentRoot (withRoot root s).environment = some root := if_neg hempty
  unfold Settings.projectRoot
  dsimp only
  rw [hnamed]
  rfl

theorem perform_openLogFile_withRoot (file : Path) (root : String) (s : Session) :
    (openLogFile file).perform (withRoot root s) =
      (((openLogFile file).perform s).1, withRoot root ((openLogFile file).perform s).2) := by
  rw [openLogFile]
  cases file.hasNul with
  | true => rfl
  | false =>
    rw [if_neg Bool.false_ne_true, perform_bind_ok (perform_get s),
      perform_bind_ok (perform_get (withRoot root s))]
    have hhere : (withRoot root s).environment.workingDirectory =
      s.environment.workingDirectory := rfl
    have hfiles : (withRoot root s).files = s.files := rfl
    dsimp only
    rw [hhere, hfiles]
    cases s.files.append s.environment.workingDirectory
        (Path.absolute s.environment.workingDirectory file) [] with
    | error fault =>
      rw [perform_bind_error (perform_orFail_error _ fault s),
        perform_bind_error (perform_orFail_error _ fault (withRoot root s))]
    | ok files =>
      rw [perform_bind_ok (perform_orFail_ok _ files s),
        perform_bind_ok (perform_orFail_ok _ files (withRoot root s))]
      rfl

/-- Setting the logging up does not ask for a project root. -/
theorem perform_configure_withRoot (level : String) (json : Bool) (file : Option Path)
    (root : String) (s : Session) :
    (configure level json file).perform (withRoot root s) =
      (((configure level json file).perform s).1,
        withRoot root ((configure level json file).perform s).2) := by
  have hopen : (file.mapM openLogFile).perform (withRoot root s) =
      (((file.mapM openLogFile).perform s).1,
        withRoot root ((file.mapM openLogFile).perform s).2) := by
    cases file with
    | none => rfl
    | some file =>
      have hrun : ∀ session, ((some file).mapM openLogFile).perform session =
          (openLogFile file >>= fun path => pure (some path)).perform session := by
        intro session
        rw [← map_eq_pure_bind]
        rfl
      rw [hrun, hrun, perform_bind, perform_bind, perform_openLogFile_withRoot]
      rcases (openLogFile file).perform s with ⟨_ | path, t⟩ <;> rfl
  rw [configure, perform_bind, perform_bind, hopen]
  rcases (file.mapM openLogFile).perform s with ⟨_ | opened, t⟩
  · rfl
  · cases Log.rankOfName level with
    | ok threshold => rfl
    | error fault => cases hlate : fault.isLate <;> simp only [hlate] <;> rfl

/-! ## The two runs -/

/-- What a run with a given root and one with a named root have in common. -/
def commonOfRoot (a : Arguments) (root : String) (s : Session) : Common where
  environment := s.environment
  other := (withRoot root s).environment
  home_eq := rfl
  workingDirectory_eq := rfl
  logs := a.log.LeadsTo s
  reads := a.Reads s.environment
  writes := a.Exports
  before := (s.output, s.output)

/-- Once the logging has been set up, the two sessions are alike. -/
theorem alike_withRoot {a : Arguments} {s ready : Session} (root : String)
    (hconfigure : (configure a.log.level a.log.json a.log.file).perform s = (.ok (), ready))
    (hreads : ∀ path, a.Reads s.environment path → s.Avoids (a.log.LeadsTo s) path) :
    Alike (commonOfRoot a root s) ready (withRoot root ready) := by
  have hend := configureEnd_configure a.log s
  rw [hconfigure] at hend
  cases hend with
  | done threshold files hopened hlevel =>
    have hprepares := prepares_setUp (a := a) hopened.sameBut threshold
    refine ⟨rfl, rfl, rfl, .refl _ _, hprepares.logs, hprepares.logs, ?_, ?_,
      ⟨"", String.append_empty.symm, String.append_empty.symm⟩⟩
    · intro path hpath place hplace
      exact hreads path hpath place (hprepares.files.destination_eq_ok_iff.mp hplace)
    · intro path hpath place hplace hlog
      have hthere := isSome_of_configure hconfigure hlog
      exact ⟨hthere, hthere⟩

theorem agrees_proceed_withRoot {a : Arguments} {root : String} (hroot : root ≠ "")
    (hgiven : a.root = some (Path.ofText root)) (columns : Nat) (s : Session) :
    Agrees (commonOfRoot a root s) (proceed columns a.root a.command)
      (proceed columns none a.command) := by
  have hsame : Settings.projectRoot (commonOfRoot a root s).other none =
      Settings.projectRoot (commonOfRoot a root s).environment a.root := by
    rw [hgiven]
    exact projectRoot_withRoot hroot s
  refine agrees_projectRoot_bind hsame fun directory _ => (agrees_bindContext _ _).bind fun _ => ?_
  refine agrees_obey columns (fun hcommand => ⟨hsame, fun directory hdirectory => ?_⟩)
    fun name hname => ⟨name, hname, rfl⟩
  exact ⟨⟨hcommand, directory, hdirectory, Or.inl rfl⟩,
    ⟨hcommand, directory, hdirectory, Or.inr rfl⟩⟩

/-- Two runs that are read alike, except that one gives the root which the other finds named. -/
theorem run_withRoot (columns : Nat) {root : String} (hroot : root ≠ "") {rest words : List String}
    {s : Session} (hadds : AddsRoot root rest words) (hrest : NamesNoRoot rest)
    (hreads : ∀ a, Arguments.read words = .ok a → ∀ path, a.Reads s.environment path →
      s.Avoids (a.log.LeadsTo s) path) :
    let given := (run columns words).perform s
    let named := (run columns rest).perform (withRoot root s)
    named.1 = given.1 ∧ named.2.output = given.2.output ∧
      ∀ place, ¬ IsLogOf rest s place → named.2.files.get? place = given.2.files.get? place := by
  intro given named
  cases hread : Arguments.read rest with
  | error stopped =>
    have hstopped : Arguments.read words = .error stopped := by
      rw [hadds, hread]
      rfl
    have hgiven : given = _ := perform_run_of_stopped hstopped columns s
    have hnamed : named = _ := perform_run_of_stopped hread columns (withRoot root s)
    rw [hgiven, hnamed]
    exact ⟨rfl, rfl, fun _ _ => rfl⟩
  | ok b =>
    let a : Arguments := { b with root := some (Path.ofText root) }
    have hwords : Arguments.read words = .ok a := by
      rw [hadds, hread]
      rfl
    have hgiven : given = (configure b.log.level b.log.json b.log.file >>= fun _ =>
        proceed columns a.root b.command).perform s := by
      show (run columns words).perform s = _
      rw [run, hwords]
      exact congrArg (Activity.perform · s) (run_eq_configure_bind_proceed columns a)
    have hnamed : named = (configure b.log.level b.log.json b.log.file >>= fun _ =>
        proceed columns none b.command).perform (withRoot root s) := by
      show (run columns rest).perform (withRoot root s) = _
      rw [run, hread, ← hrest.root_eq_none hread]
      exact congrArg (Activity.perform · _) (run_eq_configure_bind_proceed columns b)
    have hother := perform_configure_withRoot b.log.level b.log.json b.log.file root s
    rcases hconfigure : (configure b.log.level b.log.json b.log.file).perform s with
      ⟨failure | done, ready⟩
    · rw [hconfigure] at hother
      rw [hgiven, hnamed, perform_bind_error hconfigure, perform_bind_error hother]
      exact ⟨rfl, rfl, fun _ _ => rfl⟩
    · rw [hconfigure] at hother
      rw [hgiven, hnamed, perform_bind_ok hconfigure, perform_bind_ok hother]
      have halike := alike_withRoot (a := a) root hconfigure (hreads a hwords)
      obtain ⟨hresult, hafter⟩ :=
        agrees_proceed_withRoot (a := a) hroot rfl columns s _ _ halike
      obtain ⟨text, hone, htwo⟩ := hafter.output
      refine ⟨hresult, htwo.trans hone.symm, fun place hplace => hafter.files.get?_eq place ?_⟩
      exact fun hlog => hplace ⟨b, hread, hlog⟩

/-- **A run cannot tell how its project root has been named.**  The option may stand in front of the
other words, in one word with its value or in two.  However it is written, the run with it and the run
without it, in surroundings that name the root, end in the same way, print the same, and leave the
same files but for the log; and both look for the two documents in that root. -/
theorem run_rootEitherWay (columns : Nat) {root : String} (hroot : root ≠ "") (s : Session) :
    (∀ rest words, GivesRoot root rest words → NamesNoRoot rest → AddsRoot root rest words) ∧
    (∀ rest words, AddsRoot root rest words → NamesNoRoot rest →
      (∀ a, Arguments.read words = .ok a → ∀ path, a.Reads s.environment path →
        s.Avoids (a.log.LeadsTo s) path) →
      let given := (run columns words).perform s
      let named := (run columns rest).perform (withRoot root s)
      named.1 = given.1 ∧ named.2.output = given.2.output ∧
      ∀ place, ¬ IsLogOf rest s place → named.2.files.get? place = given.2.files.get? place) ∧
    ∀ directory, (Path.ofText root).expandHome s.environment.home = .ok directory →
      ∀ t u, t.environment = s.environment → u.environment = (withRoot root s).environment →
        ((defaultsPath (some (Path.ofText root))).perform t).1 =
          .ok (directory.child Settings.defaultsName) ∧
        ((defaultsPath none).perform u).1 = .ok (directory.child Settings.defaultsName) ∧
        ((overridesPath (some (Path.ofText root))).perform t).1 =
          .ok (directory.child Settings.overridesName) ∧
        ((overridesPath none).perform u).1 = .ok (directory.child Settings.overridesName) := by
  refine ⟨fun rest words => addsRoot_of_givesRoot,
    fun rest words => run_withRoot columns hroot, fun directory hdirectory t u ht hu => ?_⟩
  have hfirst : Settings.projectRoot t.environment (some (Path.ofText root)) = .ok directory := by
    rw [ht]
    exact hdirectory
  have hsecond : Settings.projectRoot u.environment none = .ok directory := by
    rw [hu, projectRoot_withRoot hroot]
    exact hdirectory
  rw [perform_defaultsPath hfirst, perform_defaultsPath hsecond, perform_overridesPath hfirst,
    perform_overridesPath hsecond]
  exact ⟨rfl, rfl, rfl, rfl⟩

/-- A session in which the project is below the home directory, and the surroundings name another. -/
def homeProject : Session where
  environment :=
    { home := "/home", configuredRoot := some "/elsewhere", workingDirectory := ⟨1, []⟩ }
  files := ⟨[(["home"], .directory), (["home", "moqt"], .directory),
    (["home", "moqt", "settings.yml.example"], .file (Text.encode "moqt_workspace_path: /srv/w\n"))]⟩

/-- The words of a run that makes the user's own settings and tells a log about it. -/
def loggedInit : List String := ["--log-file", "run.log", "--log-level", "DEBUG", "init"]

theorem run_rootEitherWay_homeProject :
    let given := (run 80 ("--root" :: "~/moqt/" :: loggedInit)).perform homeProject
    let named := (run 80 loggedInit).perform (withRoot "~/moqt/" homeProject)
    named.1 = given.1 ∧ named.2.output = given.2.output ∧
      ∀ place, place ≠ ["run.log"] → named.2.files.get? place = given.2.files.get? place := by
  let line : Line :=
    { given := [⟨"--log-file", some "run.log"⟩, ⟨"--log-level", some "DEBUG"⟩]
      command := some ("init", []) }
  let a : Arguments :=
    { root := some ⟨0, ["~", "moqt"]⟩, log := { level := "DEBUG", file := some ⟨0, ["run.log"]⟩ }
      command := some (.init false) }
  have hnone : NamesNoRoot loggedInit := by
    intro other hother
    have hline : readLine moqtbox loggedInit = .ok line := rfl
    obtain rfl := Except.ok.inj (hline.symm.trans hother)
    decide
  have hwords : GivesRoot "~/moqt/" loggedInit ("--root" :: "~/moqt/" :: loggedInit) :=
    .apart (by decide +kernel)
  have hread : Arguments.read ("--root" :: "~/moqt/" :: loggedInit) = .ok a := by decide +kernel
  have hroot : Settings.projectRoot homeProject.environment a.root = .ok ⟨1, ["home", "moqt"]⟩ := by
    decide +kernel
  have hlog : ∀ place, a.log.LeadsTo homeProject place → place = ["run.log"] := by
    rintro place ⟨_, ⟨⟩, hplace⟩
    exact (Except.ok.inj hplace).symm
  have hreads : ∀ b, Arguments.read ("--root" :: "~/moqt/" :: loggedInit) = .ok b → ∀ path,
      b.Reads homeProject.environment path →
        homeProject.Avoids (b.log.LeadsTo homeProject) path := by
    rintro b hb path ⟨-, directory, hdirectory, hpath⟩ place hplace hleads
    obtain rfl := Except.ok.inj (hread.symm.trans hb)
    obtain rfl := Except.ok.inj (hroot.symm.trans hdirectory)
    obtain rfl := hlog place hleads
    have hlast : ∀ name : String, name ≠ ".." → name ≠ "run.log" →
        homeProject.files.destination ⟨1, []⟩ (Path.child ⟨1, ["home", "moqt"]⟩ name) ≠
          .ok ["run.log"] := fun name hup hname hdestination =>
      hname (Option.some.inj (FileTree.getLast?_of_destination_child hup hdestination)).symm
    rcases hpath with rfl | rfl
    · exact hlast _ (by decide) (by decide) hplace
    · exact hlast _ (by decide) (by decide) hplace
  have hsome : "~/moqt/" ≠ "" := by decide
  have hall := run_rootEitherWay 80 hsome homeProject
  have hruns := hall.2.1 loggedInit ("--root" :: "~/moqt/" :: loggedInit)
    (hall.1 _ _ hwords hnone) hnone hreads
  generalize (run 80 ("--root" :: "~/moqt/" :: loggedInit)).perform homeProject = given at hruns ⊢
  generalize (run 80 loggedInit).perform (withRoot "~/moqt/" homeProject) = named at hruns ⊢
  obtain ⟨hresult, houtput, hfiles⟩ := hruns
  refine ⟨hresult, houtput, fun place hplace => hfiles place ?_⟩
  rintro ⟨b, hb, file, hfile, hleads⟩
  have hb' : Arguments.read loggedInit = .ok { a with root := none } := rfl
  obtain rfl := Except.ok.inj (hb'.symm.trans hb)
  exact hplace (hlog place ⟨file, hfile, hleads⟩)

end CommandLine
end DevMachines
