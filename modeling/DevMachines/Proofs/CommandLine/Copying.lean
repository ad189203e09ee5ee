import DevMachines.Proofs.CommandLine.Writing

/-!
# Making the user's own settings

The shipped defaults are copied to the user's own settings, unless they are missing or would replace
settings unasked.  `CopyEnd` lists how that can end, and `CopiesDefaults` is what has happened when
it ended with success.

## Why what is said after the copy matters

The copy is announced with the path in it, as markup.  If that could fail, a run would have changed
a file and failed nevertheless; it cannot, because the path is escaped (`announces_announce`).
-/

namespace DevMachines
namespace CommandLine

open Session Activity

/-! ## The user's own settings -/

/-- Between two sessions, the shipped defaults of a project are copied to the user's own settings,
which are replaced only if that is asked for. -/
structure CopiesDefaults (s t : Session) (given : Option Path) (force : Bool) (directory : Path)
    (source target : Place) (octets : Text.Octets) : Prop where
  root : Settings.projectRoot s.environment given = .ok directory
  origin : s.files.destination s.environment.workingDirectory
    (directory.child Settings.defaultsName) = .ok source
  writes : Writes s t (directory.child Settings.overridesName) octets target
  noNul : (directory.child Settings.overridesName).hasNul = false
  copied : t.files.get? source = some (.file octets)
  distinct : source ≠ target
  replaced : force = true ∨ (¬ s.IsLogPlace target → s.files.get? target = none)

/-- What is said after the user's own settings have been made. -/
def announce (columns : Nat) (path : Path) : Activity Nat := do
  printMarkup columns (signed "green" "✅ Created " path.toText)
  printMarkup columns "\n[dim]Next steps:[/]"
  printMarkup columns ("  1. Edit the settings: [cyan]nano " ++ escaped path.toText ++ "[/]")
  printMarkup columns "  2. Check the result: [cyan]moqtbox profiles[/]"
  pure 0

/-- Copies the shipped defaults, unless they are missing or would replace something unasked. -/
def copyDefaults (columns : Nat) (force : Bool) (defaults overrides : Path) : Activity Nat := do
  if !(← isThere defaults) then
    printMarkup columns (signed "red" "❌ Default settings not found: " defaults.toText)
    pure 1
  else if (← isThere overrides) && !force then
    printMarkup columns (signed "red" "❌ Settings already exist: " overrides.toText)
    printMarkup columns "[dim]Use --force to overwrite[/]"
    pure 1
  else
    writeFile overrides (← readFile defaults)
    announce columns overrides

theorem runInit_eq (columns : Nat) (given : Option Path) (force : Bool) :
    runInit columns given force = (do
      let defaults ← defaultsPath given
      let overrides ← overridesPath given
      copyDefaults columns force defaults overrides) :=
  rfl

/-- Markup that can be shown is printed. -/
theorem perform_printMarkup {columns : Nat} {markup : String} {text : List Char}
    (h : Terminal.render markup.toList = .ok text) (s : Session) :
    (printMarkup columns markup).perform s =
      (.ok (), { s with output := s.output ++ Terminal.printed columns text }) := by
  rw [printMarkup, h, perform_bind_ok (perform_orFail_ok _ text s)]
  rfl

/-- Does an activity succeed from every session, and leave the files as they are? -/
def Announces (a : Activity Nat) : Prop :=
  ∀ s, ∃ t, a.perform s = (.ok 0, t) ∧ t.files = s.files

/-- Markup that can be shown may be printed before. -/
theorem Announces.printMarkup {columns : Nat} {markup : String} {a : Activity Nat}
    (ha : Announces a) (h : ∃ text, Terminal.render markup.toList = .ok text) :
    Announces (printMarkup columns markup >>= fun _ => a) := by
  intro s
  obtain ⟨text, htext⟩ := h
  obtain ⟨t, hrun, hfiles⟩ := ha { s with output := s.output ++ Terminal.printed columns text }
  refine ⟨t, ?_, hfiles⟩
  rw [perform_bind_ok (perform_printMarkup htext s), hrun]

/-- **Nothing that is said after the copy can fail**, whatever the path is. -/
theorem announces_announce (columns : Nat) (path : Path) : Announces (announce columns path) := by
  have hcreated : ∃ text,
      Terminal.render (signed "green" "✅ Created " path.toText).toList = .ok text := by
    refine exists_render_signed ?_ ?_ ?_ path.toText
    · exact ⟨'g', "reen".toList, by decide, by decide, by decide⟩
    · decide
    · simp
  have hsteps : ∃ text, Terminal.render "\n[dim]Next steps:[/]".toList = .ok text :=
    exists_of_isOk (by decide +kernel)
  have hedit : ∃ text, Terminal.render
      ("  1. Edit the settings: [cyan]nano " ++ escaped path.toText ++ "[/]").toList =
        .ok text := by
    have hmarkup : "  1. Edit the settings: [cyan]nano " ++ escaped path.toText ++ "[/]" =
        "  1. Edit the settings: " ++ signed "cyan" "nano " path.toText := by
      apply String.ext
      simp [signed, escaped]
    rw [hmarkup]
    refine exists_render_append_signed ?_ ?_ ?_ ?_ path.toText
    · simp
    · exact ⟨'c', "yan".toList, by decide, by decide, by decide⟩
    · decide
    · simp
  have hcheck : ∃ text, Terminal.render
      "  2. Check the result: [cyan]moqtbox profiles[/]".toList = .ok text :=
    exists_of_isOk (by decide +kernel)
  have hdone : Announces (pure 0) := fun s => ⟨s, perform_pure 0 s, rfl⟩
  exact (((hdone.printMarkup hcheck).printMarkup hedit).printMarkup hsteps).printMarkup hcreated

theorem perform_isThere (path : Path) (s : Session) :
    (isThere path).perform s =
      ((s.files.contains s.environment.workingDirectory path).mapError (.file · path.toText),
        s) := by
  rw [isThere, perform_bind_ok (perform_get s)]
  cases s.files.contains s.environment.workingDirectory path <;> rfl

theorem perform_readFile (path : Path) (s : Session) :
    (readFile path).perform s =
      ((s.files.read s.environment.workingDirectory path).mapError (.file · path.toText), s) := by
  rw [readFile, perform_bind_ok (perform_get s)]
  cases s.files.read s.environment.workingDirectory path <;> rfl

/-- How copying the shipped defaults can end, and the session afterwards. -/
inductive CopyEnd (force : Bool) (defaults overrides : Path) (s : Session) :
    Except Failure Nat × Session → Prop
  | refused (result : Except Failure Nat) (t : Session) (hresult : result ≠ .ok 0)
      (honly : OnlyLogs s t) : CopyEnd force defaults overrides s (result, t)
  | copied (t : Session) (source target : Place) (octets : Text.Octets)
      (hsource : s.files.destination s.environment.workingDirectory defaults = .ok source)
      (hread : s.files.get? source = some (.file octets))
      (htarget : s.files.destination s.environment.workingDirectory overrides = .ok target)
      (hdirectory : s.files.get? target ≠ some .directory) (hnul : overrides.hasNul = false)
      (hreplaced : force = true ∨ s.files.get? target = none)
      (hfiles : t.files = s.files.set target (.file octets)) :
      CopyEnd force defaults overrides s (.ok 0, t)

theorem copyEnd_of_complains {a : Activity Nat} (h : Complains a) (force : Bool)
    (defaults overrides : Path) (s : Session) : CopyEnd force defaults overrides s (a.perform s) :=
  .refused _ _ (h.unsuccessful s) (h.keeps s)

/-- The copy itself, when nothing is in its way. -/
theorem copyEnd_copy (columns : Nat) {force : Bool} {defaults overrides : Path} {s : Session}
    (hfree : force = true ∨
      s.files.contains s.environment.workingDirectory overrides = .ok false) :
    CopyEnd force defaults overrides s
      ((readFile defaults >>= fun octets =>
        writeFile overrides octets >>= fun _ => announce columns overrides).perform s) := by
  have hrefl := isChained_onlyLogs.refl s
  rw [perform_bind, perform_readFile]
  cases hread : s.files.read s.environment.workingDirectory defaults with
  | error fault => exact .refused _ s nofun hrefl
  | ok octets =>
    obtain ⟨source, hsource, hcontent⟩ := FileTree.exists_of_read hread
    show CopyEnd force defaults overrides s
      ((writeFile overrides octets >>= fun _ => announce columns overrides).perform s)
    rcases writeFile_cases overrides octets s with
      ⟨failure, herror⟩ | ⟨target, hok, htarget, hdirectory, hnul⟩
    · rw [perform_bind_error herror]
      exact .refused _ s nofun hrefl
    · obtain ⟨t, hannounce, hfiles⟩ := announces_announce columns overrides
        { s with files := s.files.set target (.file octets) }
      rw [perform_bind_ok hok, hannounce]
      refine .copied t source target octets hsource hcontent htarget hdirectory hnul ?_ hfiles
      exact hfree.imp_right fun hnone => FileTree.get?_eq_none_of_contains hnul hnone htarget

/-- **Copying the defaults ends in one of these ways.** -/
theorem copyEnd_copyDefaults (columns : Nat) (force : Bool) (defaults overrides : Path)
    (s : Session) :
    CopyEnd force defaults overrides s
      ((copyDefaults columns force defaults overrides).perform s) := by
  have hrefl := isChained_onlyLogs.refl s
  rw [copyDefaults, perform_bind, perform_isThere]
  cases s.files.contains s.environment.workingDirectory defaults with
  | error fault => exact .refused _ s nofun hrefl
  | ok hasDefaults =>
    cases hasDefaults with
    | false =>
      refine copyEnd_of_complains (complains_bind (keeps_printMarkup showing_onlyLogs columns _)
        fun _ => ?_) ..
      exact complains_one
    | true =>
      show CopyEnd force defaults overrides s ((isThere overrides >>= _).perform s)
      rw [perform_bind, perform_isThere]
      cases hthere : s.files.contains s.environment.workingDirectory overrides with
      | error fault => exact .refused _ s nofun hrefl
      | ok hasOverrides =>
        simp only [Except.mapError]
        split
        · refine copyEnd_of_complains (complains_bind (keeps_printMarkup showing_onlyLogs columns _)
            fun _ => ?_) ..
          exact complains_bind (keeps_printMarkup showing_onlyLogs columns _) fun _ => complains_one
        · next hfree =>
          refine copyEnd_copy columns ?_
          rw [hthere]
          cases hasOverrides with
          | false => exact Or.inr rfl
          | true => exact Or.inl (by simpa using hfree)

/-- **Making the user's own settings either has no success and changes no file, or it copies the
defaults.** -/
theorem runInit_cases (columns : Nat) (given : Option Path) (force : Bool) (s : Session) :
    (∃ result t, (runInit columns given force).perform s = (result, t) ∧ result ≠ .ok 0 ∧
      OnlyLogs s t) ∨
    ∃ t directory source target octets, (runInit columns given force).perform s = (.ok 0, t) ∧
      CopiesDefaults s t given force directory source target octets := by
  rw [runInit_eq]
  have hdefaultsPath := perform_projectRoot given s
  cases hroot : Settings.projectRoot s.environment given with
  | error fault =>
    rw [hroot] at hdefaultsPath
    rw [defaultsPath, bind_assoc, perform_bind_error hdefaultsPath]
    refine Or.inl ⟨_, _, rfl, ?_, onlyLogs_notedAll s _⟩
    intro hdone
    cases hdone
  | ok directory =>
    let looked := Settings.projectRootEvents s.environment given
    have hnext : Settings.projectRoot (s.notedAll looked).environment given = .ok directory := by
      rw [environment_notedAll, hroot]
    rw [perform_bind_ok (perform_defaultsPath hroot), perform_bind_ok (perform_overridesPath hnext),
      environment_notedAll, ← notedAll_append]
    have hst := onlyLogs_notedAll s (looked ++ looked)
    have hend := copyEnd_copyDefaults columns force (directory.child Settings.defaultsName)
      (directory.child Settings.overridesName) (s.notedAll (looked ++ looked))
    generalize (copyDefaults columns force (directory.child Settings.defaultsName)
      (directory.child Settings.overridesName)).perform (s.notedAll (looked ++ looked)) = run
      at hend
    cases hend with
    | refused result t hresult honly =>
      exact Or.inl ⟨result, t, rfl, hresult, isChained_onlyLogs.trans hst honly⟩
    | copied t source target octets hsource hread htarget hdirectory hnul hreplaced hfiles =>
      have hdistinct : source ≠ target := by
        refine FileTree.ne_of_destination_child ?_ ?_ ?_ hsource htarget
        · decide
        · decide
        · decide
      have hwrites := writes_of_onlyLogs hst htarget hdirectory hfiles
      refine Or.inr ⟨t, directory, source, target, octets, rfl, hroot, ?_, hwrites, hnul, ?_,
        hdistinct, ?_⟩
      · rw [hst.environment, hst.files.destination_eq_ok_iff] at hsource
        exact hsource
      · rw [hfiles, FileTree.get?_set_of_ne hdistinct, hread]
      · refine hreplaced.imp_right fun hnone hplace => ?_
        rw [← hst.files.get?_eq target hplace, hnone]

end CommandLine
end DevMachines
