import DevMachines.CommandLine.Arguments
import DevMachines.Log.Setup
import DevMachines.Proofs.Results

/-!
# What a command line that is read has given

Every option that comes out of reading a command line is one of the program's, and its value is
among the choices of that option (`Given.Fits`).  Options are found in several ways, by a name, by
the beginning of one, and by a letter in the middle of a word; each way looks them up among the
options of the program, and that is all that is needed of it.

Main statement: `rankOfName_of_read`, the threshold for the log that a command line names is one.
-/

namespace DevMachines
namespace CommandLine

variable {options : List CommandOption}

/-! ## Options of the program -/

/-- Is an option that is given one of the program's, with a value that is allowed? -/
def Given.Fits (options : List CommandOption) (g : Given) : Prop :=
  ∃ o ∈ options, o.key = g.name ∧
    ∀ v text, o.value = some v → g.value = some text → v.choices = [] ∨ text ∈ v.choices

/-- If a word is an option, is it one of the program's? -/
def WordKind.IsOf (options : List CommandOption) (kind : WordKind) : Prop :=
  ∀ name o attached, kind = .option name o attached → o ∈ options

/-- Are the options in a word all of the program's? -/
structure Cluster.IsOf (options : List CommandOption) (cluster : Cluster) : Prop where
  complete : ∀ p ∈ cluster.options, p.1 ∈ options
  last : ∀ o, cluster.last = some o → o ∈ options

theorem mem_of_mem_optionNames {name : String} {o : CommandOption}
    (h : (name, o) ∈ optionNames options) : o ∈ options := by
  obtain ⟨option, hoption, hname⟩ := List.mem_flatMap.mp h
  obtain ⟨_, -, heq⟩ := List.mem_map.mp hname
  obtain rfl := (Prod.mk.inj heq).2
  exact hoption

theorem mem_of_lookup_optionNames {name : String} {o : CommandOption}
    (h : (optionNames options).lookup name = some o) : o ∈ options := by
  obtain ⟨before, after, hnames, -⟩ := List.lookup_eq_some_iff.mp h
  have hmem : (name, o) ∈ optionNames options := by
    rw [hnames]
    exact List.mem_append_right before (List.mem_cons_self ..)
  exact mem_of_mem_optionNames hmem

/-! ## Words by themselves -/

theorem mem_of_mem_candidates {cs : List Char}
    {candidate : String × CommandOption × Option Attached}
    (h : candidate ∈ candidates options cs) : candidate.2.1 ∈ options := by
  -- whatever is picked from the names keeps the option of the name
  have hpick : ∀ pick : String × CommandOption → Option (String × CommandOption × Option Attached),
      (∀ p found, pick p = some found → found.2.1 = p.2) →
      candidate ∈ (optionNames options).filterMap pick → candidate.2.1 ∈ options := by
    intro pick hkeeps hmem
    obtain ⟨p, hp, hfound⟩ := List.mem_filterMap.mp hmem
    rw [hkeeps p candidate hfound]
    exact mem_of_mem_optionNames hp
  unfold candidates at h
  split at h
  · refine hpick _ ?_ h
    rintro ⟨name, o⟩ found hfound
    obtain ⟨-, hsome⟩ := Option.ite_none_right_eq_some.mp hfound
    obtain rfl := Option.some.inj hsome
    rfl
  · refine hpick _ ?_ h
    rintro ⟨name, o⟩ found hfound
    dsimp only at hfound
    split at hfound
    · obtain rfl := Option.some.inj hfound
      rfl
    · split at hfound
      · obtain rfl := Option.some.inj hfound
        rfl
      · cases hfound
  · cases h

theorem isOf_otherKind (word : String) :
    Always (WordKind.IsOf options) (otherKind options word) := by
  rw [otherKind]
  split
  · exact always_error
  · next name o attached hone =>
    refine always_ok ?_
    rintro _ _ _ ⟨⟩
    have hmem : (name, o, attached) ∈ candidates options word.toList := by
      rw [hone]
      exact List.mem_singleton_self _
    exact mem_of_mem_candidates hmem
  · split
    · exact always_ok nofun
    · exact always_ok nofun

theorem isOf_wordKind (word : String) : Always (WordKind.IsOf options) (wordKind options word) := by
  unfold wordKind
  extract_lets cs
  split
  · exact always_ok nofun
  split
  · exact always_ok nofun
  split
  · next o hfound =>
    refine always_ok ?_
    rintro _ _ _ ⟨⟩
    exact mem_of_lookup_optionNames hfound
  split
  · exact always_ok nofun
  split
  · split
    · next o hfound =>
      refine always_ok ?_
      rintro _ _ _ ⟨⟩
      exact mem_of_lookup_optionNames hfound
    · exact isOf_otherKind word
  · exact isOf_otherKind word

theorem isOf_wordKinds (words : List String) :
    Always (fun kinds => ∀ word ∈ kinds, word.2.IsOf options) (wordKinds options words) := by
  have harguments : ∀ rest : List String, ∀ word ∈ rest.map (·, WordKind.argument),
      word.2.IsOf options := by
    intro rest word hword
    obtain ⟨_, -, rfl⟩ := List.mem_map.mp hword
    nofun
  induction words with
  | nil => exact always_ok nofun
  | cons word rest ih =>
    rw [wordKinds]
    refine (isOf_wordKind word).bind fun kind hkind => ?_
    split
    · refine always_ok (List.forall_mem_cons.mpr ⟨nofun, harguments rest⟩)
    · exact ih.bind fun kinds hkinds => always_ok (List.forall_mem_cons.mpr ⟨hkind, hkinds⟩)

/-! ## Words in order -/

/-- A word that holds one option. -/
theorem isOf_single {o : CommandOption} (ho : o ∈ options) (value : Option String)
    (extras : List String) : Cluster.IsOf options { options := [(o, value)], extras } :=
  ⟨List.forall_mem_singleton.mpr ho, nofun⟩

theorem isOf_readAttached (name : String) {o : CommandOption} (ho : o ∈ options)
    (afterEquals : Bool) (value : List Char) :
    Always (Cluster.IsOf options) (readAttached options name o afterEquals value) := by
  fun_induction readAttached options name o afterEquals value with
  | case1 => exact always_ok (isOf_single ho _ _)
  | case2 => exact always_error
  | case3 => exact always_ok (isOf_single ho _ _)
  | case4 => exact always_error
  | case5 => exact always_ok (isOf_single ho _ _)
  | case6 name o afterEquals letter _ _ next n hfound =>
    refine always_ok ⟨List.forall_mem_singleton.mpr ho, ?_⟩
    rintro _ ⟨⟩
    exact mem_of_lookup_optionNames hfound
  | case7 name o afterEquals letter _ _ next n hfound c more cluster ihEquals ihLetter =>
    have hn := mem_of_lookup_optionNames hfound
    have hcluster : Always (Cluster.IsOf options) cluster := by
      simp only [cluster]
      split
      · exact ihEquals hn
      · exact ihLetter hn
    refine hcluster.map fun inner hinner => ⟨?_, hinner.last⟩
    exact List.forall_mem_cons.mpr ⟨ho, hinner.complete⟩

theorem isOf_readCluster (name : String) {o : CommandOption} (ho : o ∈ options)
    (attached : Option Attached) :
    Always (Cluster.IsOf options) (readCluster options name o attached) := by
  cases attached with
  | none =>
    refine always_ok ⟨nofun, ?_⟩
    rintro _ ⟨⟩
    exact ho
  | some attached => exact isOf_readAttached name ho _ _

theorem fits_perform {o : CommandOption} (ho : o ∈ options) (value : Option String) :
    Always (Given.Fits options) (perform o value) := by
  unfold perform
  split
  · exact always_error
  · exact always_error
  · split
    · next v text hv =>
      split
      · next hallowed =>
        refine always_ok ⟨o, ho, rfl, ?_⟩
        rintro _ _ hv' ⟨⟩
        obtain rfl := Option.some.inj (hv.symm.trans hv')
        simpa using hallowed
      · exact always_error
    · next hnone =>
      refine always_ok ⟨o, ho, rfl, fun v text hv htext => ?_⟩
      exact absurd htext (hnone v text hv)

/-- The words behind a value are words of the line. -/
theorem mem_of_takeValue (o : CommandOption) (words : List Word) :
    Always (fun taken => ∀ word ∈ taken.2, word ∈ words) (takeValue o words) := by
  unfold takeValue
  split
  · exact always_ok fun word h => h
  · split
    · exact always_ok fun word h => List.mem_cons_of_mem _ h
    · exact always_error

/-- **Every option that is given fits**, in whatever order words come. -/
theorem fits_readWords (takesCommand : Bool) (fuel : Nat) {words : List Word}
    (hwords : ∀ word ∈ words, word.2.IsOf options) :
    Always (fun r => ∀ g ∈ r.given, g.Fits options)
      (readWords options takesCommand fuel words) := by
  induction fuel generalizing words with
  | zero => exact always_ok nofun
  | succ fuel ih =>
    cases words with
    | nil => exact always_ok nofun
    | cons first rest =>
      obtain ⟨word, kind⟩ := first
      obtain ⟨hkind, hrest⟩ := List.forall_mem_cons.mp hwords
      cases kind with
      | unknownOption => exact (ih hrest).map fun r hr => hr
      | argument =>
        rw [readWords]
        split
        · exact always_ok nofun
        · exact (ih hrest).map fun r hr => hr
      | divider =>
        rw [readWords]
        split
        · exact always_ok nofun
        · exact always_ok nofun
      | option name o attached =>
        have ho : o ∈ options := hkind name o attached rfl
        rw [readWords]
        refine ((isOf_readCluster name ho attached).mapError _).bind fun cluster hcluster => ?_
        -- a last option may take the next word along, so what is left is not always `rest`
        have hgo : ∀ (last : List (CommandOption × Option String)) (left : List Word),
            (∀ p ∈ last, p.1 ∈ options) → (∀ word ∈ left, word.2.IsOf options) →
            Always (fun r => ∀ g ∈ r.given, g.Fits options) (do
              let given ← (cluster.options ++ last).mapM fun p => perform p.1 p.2
              let r ← readWords options takesCommand fuel left
              pure { r with given := given ++ r.given, extras := cluster.extras ++ r.extras }) := by
          intro last left hlast hleft
          have hboth : ∀ p ∈ cluster.options ++ last, p.1 ∈ options := by
            intro p hp
            rcases List.mem_append.mp hp with hp | hp
            · exact hcluster.complete p hp
            · exact hlast p hp
          have hperformed := always_mapM fun p hp => fits_perform (hboth p hp) p.2
          refine hperformed.bind fun given hgiven => ?_
          refine (ih hleft).bind fun r hr => always_ok fun g hg => ?_
          rcases List.mem_append.mp hg with hg | hg
          · exact hgiven g hg
          · exact hr g hg
        split
        · next o hlast =>
          have ho := hcluster.last o hlast
          refine ((mem_of_takeValue o rest).mapError _).bind fun taken htaken => ?_
          exact hgo [(o, taken.1)] taken.2 (List.forall_mem_singleton.mpr ho)
            fun word hword => hrest word (htaken word hword)
        · exact hgo [] rest nofun hrest

theorem fits_readPart (takesCommand : Bool) (words : List String) :
    Always (fun r => ∀ g ∈ r.given, g.Fits options) (readPart options takesCommand words) :=
  ((isOf_wordKinds words).mapError _).bind fun _ hkinds => fits_readWords takesCommand _ hkinds

/-! ## The whole command line -/

/-- The options before the command are options of the program. -/
theorem fits_readLine (p : ProgramForm) (words : List String) :
    Always (fun line => ∀ g ∈ line.given, g.Fits p.options) (readLine p words) := by
  have hrefuse : ∀ {extras : List String} {line : Line}, (∀ g ∈ line.given, g.Fits p.options) →
      Always (fun line => ∀ g ∈ line.given, g.Fits p.options) (refuseExtras extras line) := by
    intro extras line hline
    rw [refuseExtras]
    split
    · exact always_ok hline
    · exact always_error
  rw [readLine]
  refine ((fits_readPart true words).mapError _).bind fun r hr => ?_
  split
  · exact hrefuse hr
  · split
    · exact always_error
    · exact always_bind fun inner => hrefuse hr

/-- The last value of an option is one of its values. -/
theorem exists_of_lastValue? {name text : String} {given : List Given}
    (h : lastValue? name given = some text) : ∃ g ∈ given, g.name = name ∧ g.value = some text := by
  obtain ⟨g, hfound, hvalue⟩ := Option.bind_eq_some_iff.mp h
  have hname := List.find?_some hfound
  refine ⟨g, ?_, eq_of_beq hname, hvalue⟩
  exact List.mem_reverse.mp (List.mem_of_find?_eq_some hfound)

/-- The thresholds that a command line may name. -/
def levelNames : List String := ["DEBUG", "INFO", "WARNING", "ERROR"]

theorem exists_rankOfName {level : String} (h : level ∈ levelNames) :
    ∃ rank, Log.rankOfName level = .ok rank := by
  have hall : ∀ level ∈ levelNames, (Log.rankOfName level).isOk = true := by decide +kernel
  exact exists_of_isOk (hall level h)

/-- The option for the threshold allows these names only. -/
theorem choices_of_key_logLevel {o : CommandOption} (ho : o ∈ moqtbox.options)
    (hkey : o.key = "--log-level") : o.value.map (·.choices) = some levelNames := by
  have hall : ∀ o ∈ moqtbox.options, o.key = "--log-level" →
      o.value.map (·.choices) = some levelNames := by
    decide +kernel
  exact hall o ho hkey

/-- **The threshold that a command line names for the log is one.** -/
theorem rankOfName_of_read {words : List String} {a : Arguments}
    (h : Arguments.read words = .ok a) : ∃ rank, Log.rankOfName a.log.level = .ok rank := by
  rw [Arguments.read] at h
  cases hline : readLine moqtbox words with
  | error stopped =>
    rw [hline] at h
    cases h
  | ok line =>
    rw [hline] at h
    obtain rfl := Except.ok.inj h
    have hfits := fits_readLine moqtbox words line hline
    show ∃ rank, Log.rankOfName ((lastValue? "--log-level" line.given).getD "WARNING") = .ok rank
    refine exists_rankOfName ?_
    cases hlast : lastValue? "--log-level" line.given with
    | none =>
      have hdefault : "WARNING" ∈ levelNames := by decide
      exact hdefault
    | some text =>
      obtain ⟨g, hg, hname, hvalue⟩ := exists_of_lastValue? hlast
      obtain ⟨o, ho, hkey, hallowed⟩ := hfits g hg
      obtain ⟨v, hv, hchoices⟩ :=
        Option.map_eq_some_iff.mp (choices_of_key_logLevel ho (hkey.trans hname))
      rcases hallowed v text hv hvalue with hnone | hmem
      · rw [hchoices] at hnone
        cases hnone
      · rw [hchoices] at hmem
        exact hmem

end CommandLine
end DevMachines
