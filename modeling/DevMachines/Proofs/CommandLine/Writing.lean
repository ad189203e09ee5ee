import DevMachines.Proofs.CommandLine.Preparing

/-!
# Writing a file as a whole

A command either prints, which changes no file but the log, or writes one file as a whole.  Writing
comes last, so when it fails nothing has been changed, and when it is done nothing fails any more.

Main statement: `writeVagrantfile_cases`, the file that a Vagrantfile is written to gets exactly the
text that would have been printed.

## How printing and writing can agree

The profiles are declared before it matters where their Vagrantfile goes (`wantedProfiles`), and
until then nothing is printed on standard output.  So the two ways part only at the text itself.
-/

namespace DevMachines
namespace CommandLine

open Session Activity

/-! ## Printing -/

/-- A relation that holds of everything that a command does to a session, as long as it writes no
file. -/
structure Showing (R : Session → Session → Prop) : Prop where
  bookkeeping : ∀ audience, Bookkeeping R audience
  printed : ∀ s text, R s { s with output := s.output ++ text }

section Showing

variable {R : Session → Session → Prop} (hR : Showing R)

include hR

theorem Showing.isChained : IsChained R := (hR.bookkeeping .nobody).toIsChained

theorem keeps_print (text : String) : Keeps R (print text) := keeps_modify (hR.printed · text)

theorem keeps_printMarkup (columns : Nat) (markup : String) :
    Keeps R (printMarkup columns markup) :=
  (keeps_orFail hR.isChained _ _).bind hR.isChained fun _ => keeps_print hR _

theorem keeps_printLong (markup : String) : Keeps R (printLong markup) :=
  (keeps_orFail hR.isChained _ _).bind hR.isChained fun _ => keeps_print hR _

theorem keeps_printBanner (columns : Nat) : Keeps R (printBanner columns) :=
  (keeps_printMarkup hR columns _).bind hR.isChained fun _ => keeps_printMarkup hR columns _

theorem keeps_printSources (columns : Nat) (settings : Settings.MergedSettings) :
    Keeps R (printSources columns settings) :=
  (keeps_orFail hR.isChained _ _).bind hR.isChained fun _ => keeps_print hR _

theorem keeps_runSettings (columns : Nat) (root : Option Path) (format : SettingsFormat) :
    Keeps R (runSettings columns root format) := by
  refine (keeps_loadSettings (hR.bookkeeping .errors) root).bind hR.isChained fun settings => ?_
  cases format with
  | json => exact (keeps_orFail hR.isChained _ _).bind hR.isChained fun _ => keeps_print hR _
  | yaml =>
    refine (keeps_printSources hR columns settings).bind hR.isChained fun _ => ?_
    exact keeps_ite (keeps_printMarkup hR columns _)
      (keeps_ite (keeps_throw hR.isChained _) (keeps_print hR _))

theorem keeps_runProfiles (columns : Nat) (root : Option Path) (format : ProfilesFormat) :
    Keeps R (runProfiles columns root format) := by
  refine (keeps_loadSettings (hR.bookkeeping .nobody) root).bind hR.isChained fun settings => ?_
  refine (keeps_declareFrom (hR.bookkeeping format.audience) settings).bind hR.isChained
    fun _ => ?_
  exact (keeps_orFail hR.isChained _ _).bind hR.isChained fun _ => keeps_print hR _

theorem keeps_reportFailure (columns : Nat) (failure : Failure) :
    Keeps R (reportFailure columns failure) := by
  have hthen : ∀ {a : Activity Unit}, Keeps R a → Keeps R (a >>= fun _ => pure 1) :=
    fun ha => ha.bind hR.isChained fun _ => keeps_pure hR.isChained 1
  unfold reportFailure
  split
  · exact hthen (keeps_printMarkup hR columns _)
  · exact hthen (keeps_printLong hR _)
  · exact hthen (keeps_printLong hR _)
  · exact hthen (keeps_throw hR.isChained failure)

end Showing

/-- **Showing something changes no file but the log.** -/
theorem showing_onlyLogs : Showing OnlyLogs where
  bookkeeping := bookkeeping_onlyLogs
  printed _ _ := onlyLogs_of_files_eq rfl rfl rfl

/-- Does an activity say no, without success, and change files only where log records go? -/
structure Complains (a : Activity Nat) : Prop where
  keeps : Keeps OnlyLogs a
  unsuccessful : ∀ s, (a.perform s).1 ≠ .ok 0

theorem complains_one : Complains (pure 1) := ⟨keeps_pure isChained_onlyLogs 1, nofun⟩

theorem complains_throw (failure : Failure) : Complains (throw failure) :=
  ⟨keeps_throw isChained_onlyLogs failure, nofun⟩

theorem complains_bind {α : Type} {a : Activity α} {f : α → Activity Nat} (ha : Keeps OnlyLogs a)
    (hf : ∀ x, Complains (f x)) : Complains (a >>= f) := by
  refine ⟨ha.bind isChained_onlyLogs fun x => (hf x).keeps, fun s => ?_⟩
  rw [perform_bind]
  split
  · next x t hrun => exact (hf x).unsuccessful t
  · nofun

/-- A failure is never reported as a success. -/
theorem complains_reportFailure (columns : Nat) (failure : Failure) :
    Complains (reportFailure columns failure) := by
  unfold reportFailure
  split
  · exact complains_bind (keeps_printMarkup showing_onlyLogs columns _) fun _ => complains_one
  · exact complains_bind (keeps_printLong showing_onlyLogs _) fun _ => complains_one
  · exact complains_bind (keeps_printLong showing_onlyLogs _) fun _ => complains_one
  · exact complains_throw failure

/-! ## Writing a file as a whole -/

/-- Between two sessions, a file is written as a whole at the place that a path leads to, and other
files change only where log records go. -/
structure Writes (s t : Session) (path : Path) (octets : Text.Octets) (place : Place) : Prop where
  destination : s.files.destination s.environment.workingDirectory path = .ok place
  written : t.files.get? place = some (.file octets)
  others : s.files.SameBut (fun other => s.IsLogPlace other ∨ other = place) t.files

/-- Writing a file either fails and changes nothing, or is done. -/
theorem writeFile_cases (path : Path) (octets : Text.Octets) (s : Session) :
    (∃ failure, (writeFile path octets).perform s = (.error failure, s)) ∨
    ∃ place, (writeFile path octets).perform s =
        (.ok (), { s with files := s.files.set place (.file octets) }) ∧
      s.files.destination s.environment.workingDirectory path = .ok place ∧
      s.files.get? place ≠ some .directory ∧ path.hasNul = false := by
  rw [writeFile]
  cases hnul : path.hasNul with
  | true => exact Or.inl ⟨.nulInPath, rfl⟩
  | false =>
    rw [if_neg Bool.false_ne_true, perform_bind_ok (perform_get s)]
    cases hwrite : s.files.write s.environment.workingDirectory path octets with
    | error fault => exact Or.inl ⟨.file fault path.toText, rfl⟩
    | ok files =>
      obtain ⟨place, hplace, hdirectory, rfl⟩ := FileTree.exists_of_write hwrite
      exact Or.inr ⟨place, rfl, hplace, hdirectory, rfl⟩

/-- A file that is written after nothing but records. -/
theorem writes_of_onlyLogs {s t u : Session} {path : Path} {octets : Text.Octets} {place : Place}
    (hst : OnlyLogs s t)
    (hplace : t.files.destination t.environment.workingDirectory path = .ok place)
    (hdirectory : t.files.get? place ≠ some .directory)
    (hfiles : u.files = t.files.set place (.file octets)) : Writes s u path octets place := by
  have hroot : place ≠ [] := by
    rintro rfl
    exact hdirectory rfl
  rw [hst.environment, hst.files.destination_eq_ok_iff] at hplace
  refine ⟨hplace, ?_, ?_⟩
  · rw [hfiles, FileTree.get?_set_self hroot]
  · rw [hfiles]
    exact (hst.files.mono fun _ => Or.inl).trans
      ((FileTree.sameBut_set hdirectory octets).mono fun _ => Or.inr)

/-! ## The Vagrantfile -/

/-- Declares the profiles that a Vagrantfile is wanted for. -/
def wantedProfiles (root : Option Path) : Activity ProfileSet := do
  let settings ← loadSettings root .nobody
  declareFrom settings .errors

/-- Prints the Vagrantfile of profiles, or writes it to a file. -/
def handOut (profiles : ProfileSet) : Option String → Activity Unit
  | none => print profiles.vagrantfile
  | some name => do
      writeFile (Path.ofText name) (Text.encode profiles.vagrantfile)
      tell .errors ("Wrote " ++ (Path.ofText name).toText)

theorem runVagrantfile_eq (root : Option Path) (output : Option String) :
    runVagrantfile root output =
      wantedProfiles root >>= fun profiles => handOut profiles output := by
  rw [runVagrantfile, wantedProfiles, bind_assoc]
  cases output <;> rfl

theorem keeps_wantedProfiles {R : Session → Session → Prop} (hR : Showing R)
    (root : Option Path) : Keeps R (wantedProfiles root) :=
  (keeps_loadSettings (hR.bookkeeping .nobody) root).bind hR.isChained fun _ =>
    keeps_declareFrom (hR.bookkeeping .errors) _

/-- Nothing is printed on standard output before the Vagrantfile. -/
theorem output_wantedProfiles (root : Option Path) (s : Session) :
    ((wantedProfiles root).perform s).2.output = s.output := by
  have hnobody : Audience.nobody ≠ .output := nofun
  have herrors : Audience.errors ≠ .output := nofun
  exact ((keeps_loadSettings (bookkeeping_output hnobody) root).bind
    (bookkeeping_output hnobody).toIsChained fun settings =>
      keeps_declareFrom (bookkeeping_output herrors) settings) s

theorem keeps_printVagrantfile (root : Option Path) :
    Keeps OnlyLogs (runVagrantfile root none) := by
  rw [runVagrantfile_eq]
  exact (keeps_wantedProfiles showing_onlyLogs root).bind isChained_onlyLogs fun _ =>
    keeps_print showing_onlyLogs _

/-- **Writing the Vagrantfile either fails and changes no file, or the file gets what would have
been printed.** -/
theorem writeVagrantfile_cases (root : Option Path) (name : String) (s : Session) :
    (∃ failure t, (runVagrantfile root (some name)).perform s = (.error failure, t) ∧
      OnlyLogs s t) ∨
    ∃ profiles place t, (runVagrantfile root (some name)).perform s = (.ok (), t) ∧
      ((wantedProfiles root).perform s).1 = .ok profiles ∧
      Writes s t (Path.ofText name) (Text.encode profiles.vagrantfile) place := by
  have honly := keeps_wantedProfiles showing_onlyLogs root s
  rw [runVagrantfile_eq, perform_bind]
  generalize (wantedProfiles root).perform s = wanted at honly
  obtain ⟨result, t⟩ := wanted
  cases result with
  | error failure => exact Or.inl ⟨failure, t, rfl, honly⟩
  | ok profiles =>
    dsimp only at honly ⊢
    rw [handOut]
    rcases writeFile_cases (Path.ofText name) (Text.encode profiles.vagrantfile) t with
      ⟨failure, herror⟩ | ⟨place, hok, hplace, hdirectory, -⟩
    · rw [perform_bind_error herror]
      exact Or.inl ⟨failure, t, rfl, honly⟩
    · rw [perform_bind_ok hok, perform_tell]
      refine Or.inr ⟨profiles, place, _, rfl, rfl, ?_⟩
      exact writes_of_onlyLogs honly hplace hdirectory rfl

end CommandLine
end DevMachines
