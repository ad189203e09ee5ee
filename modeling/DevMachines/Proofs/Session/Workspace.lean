import DevMachines.Proofs.Files.Home
import DevMachines.Proofs.Session.Declaring
import DevMachines.Proofs.Session.Resolving

/-!
# What the setting for the workspace decides

Two documents, the reading of the setting and the check of a host path must agree on what names a
directory, because together they decide between a folder and a notice.  `WorkspaceReading` says once
how a setting is read; everything else goes through its three cases.

Main statements: `declareFrom_followsSetting`, profiles that are declared from resolved settings
have a folder exactly if the value that counts names a directory, and otherwise there is one notice;
`declareFrom_succeeds_iff`, when profiles are declared at all.

## Why a directory is not enough

A text with more than blanks in it is never refused as blank, but it may begin with the home
directory of somebody else.  That one is not known, so there is no folder and no notice either: the
failure goes through to whoever wanted the profiles.
-/

namespace DevMachines

open Session Activity Settings

/-! ## Reading the setting -/

/-- Does a setting name a directory: is it a text in which there is more than blanks? -/
def NamesDirectory (setting : Option Value) : Prop :=
  ∃ text, setting = some (.text text) ∧ ∃ c ∈ text.toList, Text.isBlank c = false

/-- Is a value neither a text nor null? -/
def IsOtherKind (v : Value) : Prop := v ≠ .null ∧ ∀ text, v ≠ .text text

theorem namesDirectory_text_iff {text : String} :
    NamesDirectory (some (.text text)) ↔ Text.isAllBlank text = false := by
  rw [Text.isAllBlank, List.all_eq_false]
  constructor
  · rintro ⟨_, h, c, hc, hblank⟩
    cases h
    exact ⟨c, hc, Bool.eq_false_iff.mp hblank⟩
  · rintro ⟨c, hc, hblank⟩
    exact ⟨text, rfl, c, hc, Bool.eq_false_iff.mpr hblank⟩

theorem not_namesDirectory_of_otherKind {v : Value} (h : IsOtherKind v) :
    ¬ NamesDirectory (some v) := by
  rintro ⟨text, htext, -⟩
  exact h.2 text (Option.some.inj htext)

/-- How the setting for the workspace can be read. -/
inductive WorkspaceReading : Option Value → Workspace → Prop
  | directory (text : String) (h : Text.isAllBlank text = false) :
      WorkspaceReading (some (.text text)) (.at text)
  | otherKind (v : Value) (h : IsOtherKind v) : WorkspaceReading (some v) (.notText v.kindName)
  | nothing (setting : Option Value) (hdirectory : ¬ NamesDirectory setting)
      (hkind : ¬ ∃ v, setting = some v ∧ IsOtherKind v) : WorkspaceReading setting .unset

/-- There is no other way to read the setting. -/
theorem workspaceReading_ofSetting (setting : Option Value) :
    WorkspaceReading setting (Workspace.ofSetting setting) := by
  cases setting with
  | none =>
    refine .nothing none ?_ ?_
    · rintro ⟨text, htext, -⟩
      cases htext
    · rintro ⟨v, hv, -⟩
      cases hv
  | some v =>
    cases v with
    | null =>
      refine .nothing _ ?_ ?_
      · rintro ⟨text, htext, -⟩
        cases htext
      · rintro ⟨v, hv, hkind⟩
        exact hkind.1 (Option.some.inj hv).symm
    | text text =>
      rw [Workspace.ofSetting]
      split
      · next hblank =>
        refine .nothing _ ?_ ?_
        · rw [namesDirectory_text_iff, hblank]
          exact Bool.noConfusion
        · rintro ⟨v, hv, hkind⟩
          exact hkind.2 text (Option.some.inj hv).symm
      · next hblank => exact .directory text (Bool.eq_false_iff.mpr hblank)
    | _ => exact .otherKind _ ⟨nofun, nofun⟩

/-! ## The folder of a directory -/

/-- Why a host path that begins elsewhere is rejected. -/
def rejectionOf : HomeFault → Rejection
  | .nulCharacter => .faults [⟨[.field "host_path"], .rule .nulCharacter⟩]
  | .unknownHome => .unknownHome

/-- The folder of a directory is its path without the blanks around it, with the home directory in
the place of a tilde, in normal form. -/
theorem folders_at_of_not_blank {text : String} (h : Text.isAllBlank text = false) (home : String) :
    (Workspace.at text).folders home =
      match (Path.ofText (Text.trimmed text)).expandHome home with
      | .ok path => .ok [⟨path.toText, workspaceGuestPath⟩]
      | .error fault => .error (rejectionOf fault) := by
  have hempty : ¬ (Text.trimmed text).isEmpty = true := by
    rw [Text.isEmpty_trimmed, h]
    exact Bool.false_ne_true
  rw [folders_at, readHostPath]
  simp only [readText, bind, Except.bind, if_neg hempty]
  cases (Path.ofText (Text.trimmed text)).expandHome home with
  | ok path => rfl
  | error fault => cases fault <;> rfl

theorem folders_ofSetting_text {text : String} (h : Text.isAllBlank text = false) (home : String) :
    (Workspace.ofSetting (some (.text text))).folders home =
      match (Path.ofText (Text.trimmed text)).expandHome home with
      | .ok path => .ok [⟨path.toText, workspaceGuestPath⟩]
      | .error fault => .error (rejectionOf fault) := by
  rw [Workspace.ofSetting, if_neg (Bool.eq_false_iff.mp h), folders_at_of_not_blank h]

/-! ## Profiles and notices -/

/-- The notice for a setting that is neither a text nor null. -/
def wrongKindNotice (v : Value) : String :=
  s!"{workspaceKey} must be a directory path, got {v.kindName}; no shared folder will be mounted"

/-- The notice for a setting that names nothing. -/
def unsetNotice : String := s!"{workspaceKey} is not set; no shared folder will be mounted"

/-- The two notices cannot be taken for each other. -/
theorem unsetNotice_ne_wrongKindNotice (v : Value) : unsetNotice ≠ wrongKindNotice v := by
  intro h
  have hlist := congrArg String.toList h
  simp [unsetNotice, wrongKindNotice, workspaceKey, toString] at hlist

/-- The two profiles and the notices that a setting for the workspace calls for. -/
structure FollowsSetting (home : String) (setting : Option Value) (osx linux : Profile)
    (notices : List String) : Prop where
  bare : osx.name = "osx" ∧ osx.steps = [] ∧ osx.folders = []
  provisioned : linux.name = "linux" ∧ linux.steps = [
    ⟨"install_dependencies", .shell, "scripts/install_dependencies.sh", false⟩,
    ⟨"moqt_setup", .shell, "scripts/moqt_setup.sh", false⟩]
  mounted : linux.folders.length = 1 ↔ NamesDirectory setting
  /-- There is either a folder or a notice. -/
  exclusive : linux.folders.length + notices.length = 1
  /-- The folder is the path without the blanks around it, with the home directory in the place of a
  tilde, in normal form. -/
  folder : ∀ text, setting = some (.text text) → NamesDirectory setting →
    ∃ path, (Path.ofText (Text.trimmed text)).expandHome home = .ok path ∧
      linux.folders = [⟨path.toText, "/home/vagrant/moqt_workspace"⟩]
  wrongKind : (∃ v, notices = [wrongKindNotice v]) ↔ ∃ v, setting = some v ∧ IsOtherKind v
  /-- The notice is the one of the setting. -/
  notice : ∀ message ∈ notices, message = unsetNotice ∨
    ∃ v, setting = some v ∧ message = wrongKindNotice v

/-- The session after several things have been told. -/
def Session.toldAll (s : Session) (audience : Audience) (messages : List String) : Session :=
  messages.foldl (·.told audience ·) s

/-- A setting that names nothing calls for the notice that it is not set. -/
theorem followsSetting_unset {home : String} {setting : Option Value}
    (hdirectory : ¬ NamesDirectory setting) (hkind : ¬ ∃ v, setting = some v ∧ IsOtherKind v) :
    FollowsSetting home setting osxProfile (linuxProfile []) [unsetNotice] where
  bare := ⟨rfl, rfl, rfl⟩
  provisioned := ⟨rfl, rfl⟩
  mounted := ⟨nofun, fun h => absurd h hdirectory⟩
  exclusive := rfl
  folder text _ h := absurd h hdirectory
  wrongKind := by
    refine ⟨?_, fun h => absurd h hkind⟩
    rintro ⟨v, hv⟩
    exact absurd (List.cons.inj hv).1 (unsetNotice_ne_wrongKindNotice v)
  notice _ h := Or.inl (List.mem_singleton.mp h)

theorem Session.notices_toldAll (s : Session) (audience : Audience) (messages : List String) :
    (s.toldAll audience messages).notices =
      s.notices ++ if audience = .caller then messages else [] := by
  induction messages generalizing s with
  | nil => simp [toldAll]
  | cons message messages ih =>
    have hnext : s.toldAll audience (message :: messages) =
        (s.told audience message).toldAll audience messages := rfl
    rw [hnext, ih, notices_told]
    split <;> simp

/-- **The profiles and notices follow the setting**, whenever profiles are declared at all. -/
theorem followsSetting_of_perform {setting : Option Value} {audience : Audience} {s t : Session}
    {profiles : ProfileSet}
    (h : (declareProfiles setting audience).perform s = (.ok profiles, t)) :
    ∃ osx linux event notices, profiles.profiles = [osx, linux] ∧
      FollowsSetting s.environment.home setting osx linux notices ∧
      t = (s.noted event).toldAll audience notices := by
  rw [perform_declareProfiles] at h
  have hreading := workspaceReading_ofSetting setting
  generalize Workspace.ofSetting setting = workspace at h hreading
  cases hreading with
  | directory text hblank =>
    have hdirectory := namesDirectory_text_iff.mpr hblank
    rw [folders_at_of_not_blank hblank] at h
    cases hpath : (Path.ofText (Text.trimmed text)).expandHome s.environment.home with
    | error fault =>
      rw [hpath] at h
      cases h
    | ok path =>
      rw [hpath] at h
      obtain ⟨hprofiles, rfl⟩ := Prod.mk.inj h
      obtain rfl := Except.ok.inj hprofiles
      refine ⟨_, _, _, [], rfl, ⟨⟨rfl, rfl, rfl⟩, ⟨rfl, rfl⟩,
        ⟨fun _ => hdirectory, fun _ => rfl⟩, rfl, ?_, ?_, nofun⟩, rfl⟩
      · rintro _ htext -
        cases htext
        exact ⟨path, hpath, rfl⟩
      · refine ⟨nofun, ?_⟩
        rintro ⟨v, hv, hkind⟩
        exact absurd (Option.some.inj hv).symm (hkind.2 text)
  | otherKind v hkind =>
    have hdirectory := not_namesDirectory_of_otherKind hkind
    obtain ⟨hprofiles, rfl⟩ := Prod.mk.inj h
    obtain rfl := Except.ok.inj hprofiles
    refine ⟨_, _, _, [wrongKindNotice v], rfl, ⟨⟨rfl, rfl, rfl⟩, ⟨rfl, rfl⟩,
      ⟨nofun, fun h => absurd h hdirectory⟩, rfl, fun _ _ h => absurd h hdirectory,
      ⟨fun _ => ⟨v, rfl, hkind⟩, fun _ => ⟨v, rfl⟩⟩, ?_⟩, rfl⟩
    exact fun message h => Or.inr ⟨v, rfl, List.mem_singleton.mp h⟩
  | nothing _ hdirectory hkind =>
    obtain ⟨hprofiles, rfl⟩ := Prod.mk.inj h
    obtain rfl := Except.ok.inj hprofiles
    exact ⟨_, _, _, _, rfl, followsSetting_unset hdirectory hkind, rfl⟩

/-! ## Profiles of resolved settings -/

/-- The value of a key that counts: that of the upper document if it has the key, else that of the
lower one. -/
def effectiveValue (defaults : Document) (overrides : Option Document) (key : String) :
    Option Value :=
  ((layer overrides).lookup key).or (defaults.entries.lookup key)

/-- Settings that come out are those of two documents that load, and what neither of them has is
reported. -/
theorem exists_documents_of_resolve {defaultsPath overridesPath : Path} {expected : List String}
    {audience : Audience} {s t : Session} {settings : MergedSettings}
    (h : (resolve defaultsPath overridesPath expected audience).perform s = (.ok settings, t)) :
    let first := (loadDocument 0 defaultsPath true).perform s
    let second := (loadDocument 1 overridesPath false).perform first.2
    ∃ defaults overrides, first.1 = .ok (some defaults) ∧ second.1 = .ok overrides ∧
      MergesLayers defaultsPath overridesPath defaults overrides settings ∧
      t = second.2.missedAll audience settings.sources
        (inNeither defaults.entries (layer overrides) expected) := by
  intro first second
  rcases hfirst : first with ⟨firstResult, s₁⟩
  cases firstResult with
  | error failure =>
    rw [perform_resolve_of_first_error hfirst] at h
    cases h
  | ok result =>
    obtain ⟨defaults, rfl⟩ := exists_of_loadDocument hfirst
    rcases hsecond : second with ⟨secondResult, s₂⟩
    have hstart : first.2 = s₁ := congrArg Prod.snd hfirst
    have hnext : (loadDocument 1 overridesPath false).perform first.2 = (secondResult, s₂) :=
      hsecond
    rw [hstart] at hnext
    cases secondResult with
    | error failure =>
      rw [perform_resolve_of_second_error hfirst hnext] at h
      cases h
    | ok overrides =>
      obtain ⟨merged, hmerge, hrun⟩ := perform_resolve hfirst hnext
      rw [hrun] at h
      obtain ⟨hsettings, hreported⟩ := Prod.mk.inj h
      obtain rfl := Except.ok.inj hsettings
      exact ⟨defaults, overrides, rfl, rfl, hmerge, hreported.symm⟩

/-- Without a directory there is no folder. -/
theorem FollowsSetting.folders_eq_nil {home : String} {setting : Option Value} {osx linux : Profile}
    {notices : List String} (h : FollowsSetting home setting osx linux notices)
    (hdirectory : ¬ NamesDirectory setting) : linux.folders = [] := by
  have hmounted : linux.folders.length ≠ 1 := fun hone => hdirectory (h.mounted.mp hone)
  have hexclusive := h.exclusive
  exact List.length_eq_zero_iff.mp (by omega)

/-- **Profiles that are declared from resolved settings follow the value that counts.**  There is no
folder if resolving has reported the workspace as missing, and an upper document that unsets it
takes the folder of a lower one away. -/
theorem declareFrom_followsSetting {defaultsPath overridesPath : Path} {expected : List String}
    {reporter audience : Audience} {s s' t t' : Session} {settings : MergedSettings}
    {profiles : ProfileSet}
    (hresolve : (resolve defaultsPath overridesPath expected reporter).perform s =
      (.ok settings, s'))
    (hdeclare : (declareFrom settings audience).perform t = (.ok profiles, t')) :
    let first := (loadDocument 0 defaultsPath true).perform s
    let second := (loadDocument 1 overridesPath false).perform first.2
    ∃ defaults overrides osx linux event notices,
      first.1 = .ok (some defaults) ∧ second.1 = .ok overrides ∧
      profiles.profiles = [osx, linux] ∧
      FollowsSetting t.environment.home (effectiveValue defaults overrides workspaceKey) osx linux
        notices ∧
      t' = (t.noted event).toldAll audience notices ∧
      t'.notices = t.notices ++ (if audience = .caller then notices else []) ∧
      s' = second.2.missedAll reporter settings.sources
        (inNeither defaults.entries (layer overrides) expected) ∧
      (workspaceKey ∈ inNeither defaults.entries (layer overrides) expected → linux.folders = []) ∧
      (∀ upper v, overrides = some upper → upper.entries.lookup workspaceKey = some v →
        ¬ NamesDirectory (some v) → linux.folders = []) := by
  intro first second
  obtain ⟨defaults, overrides, hfirst, hsecond, hmerge, hreported⟩ :=
    exists_documents_of_resolve hresolve
  rw [declareFrom, hmerge.value workspaceKey] at hdeclare
  obtain ⟨osx, linux, event, notices, hprofiles, hfollows, hafter⟩ :=
    followsSetting_of_perform hdeclare
  refine ⟨defaults, overrides, osx, linux, event, notices, hfirst, hsecond, hprofiles, hfollows,
    hafter, ?_, hreported, fun habsent => ?_, fun upper v hupper hv hnothing => ?_⟩
  · rw [hafter, notices_toldAll, notices_noted]
  · refine hfollows.folders_eq_nil ?_
    rw [← hmerge.filter_isNone] at habsent
    have hnone := Option.isNone_iff_eq_none.mp (List.mem_filter.mp habsent).2
    rw [← hmerge.value workspaceKey, hnone]
    rintro ⟨text, htext, -⟩
    cases htext
  · refine hfollows.folders_eq_nil ?_
    subst hupper
    rw [show (layer (some upper)).lookup workspaceKey = some v from hv]
    exact hnothing

/-- A session in which the own document names a directory in the home directory. -/
def ownWorkspace : Session where
  environment := { home := "/home/tester", configuredRoot := none, workingDirectory := ⟨1, []⟩ }
  files := ⟨[(["base.yml"], .file (Text.encode "moqt_workspace_path: /srv/work\n")),
    (["own.yml"], .file (Text.encode "moqt_workspace_path: ' ~//src/./moqt '\n"))]⟩

theorem declareFrom_followsSetting_ownWorkspace :
    ∃ settings s' profiles t',
      (resolve ⟨0, ["base.yml"]⟩ ⟨0, ["own.yml"]⟩ [] .nobody).perform ownWorkspace =
        (.ok settings, s') ∧
      (declareFrom settings .caller).perform ownWorkspace = (.ok profiles, t') ∧
      ∃ osx linux, profiles.profiles = [osx, linux] ∧
        linux.folders = [⟨"/home/tester/src/moqt", "/home/vagrant/moqt_workspace"⟩] ∧
        t'.notices = [] := by
  let text := " ~//src/./moqt "
  let first := (loadDocument 0 ⟨0, ["base.yml"]⟩ true).perform ownWorkspace
  let second := (loadDocument 1 ⟨0, ["own.yml"]⟩ false).perform first.2
  have hfirst : loads (fun _ => true) first = true := by decide +kernel
  have hsecond : loads (fun d => (d.entries.lookup workspaceKey).bind textOfKey = some text)
      second = true := by
    decide +kernel
  obtain ⟨defaults, hdefaults, -⟩ := exists_of_loads hfirst
  obtain ⟨overrides, hoverrides, hupper⟩ := exists_of_loads hsecond
  obtain ⟨v, hv, htext⟩ := Option.bind_eq_some_iff.mp (of_decide_eq_true hupper)
  obtain rfl := eq_text_of_textOfKey htext
  obtain ⟨settings, hmerge, hresolve⟩ :=
    @perform_resolve _ _ [] .nobody _ _ _ _ _ hdefaults hoverrides
  have hsetting : settings.get? workspaceKey = some (.text text) := by
    rw [hmerge.value, show (layer (some overrides)).lookup workspaceKey = _ from hv]
    rfl
  have hpath : (Path.ofText (Text.trimmed text)).expandHome ownWorkspace.environment.home =
      .ok ⟨1, ["home", "tester", "src", "moqt"]⟩ := by
    decide +kernel
  have hblank : Text.isAllBlank text = false := by decide +kernel
  have hfolders : (Workspace.ofSetting (settings.get? workspaceKey)).folders
      ownWorkspace.environment.home = .ok [⟨"/home/tester/src/moqt", workspaceGuestPath⟩] := by
    rw [hsetting, folders_ofSetting_text hblank, hpath]
    decide +kernel
  have hdeclare := perform_declareProfiles_ok hfolders .caller
  refine ⟨settings, _, _, _, hresolve, hdeclare, ?_⟩
  obtain ⟨defaults', overrides', osx, linux, event, notices, hfirst', hsecond', hprofiles, hfollows,
    -, hnotices, -⟩ := declareFrom_followsSetting hresolve hdeclare
  obtain rfl : some overrides = overrides' := Except.ok.inj
    ((congrArg Prod.fst hoverrides).symm.trans hsecond')
  have heffective : effectiveValue defaults' (some overrides) workspaceKey = some (.text text) := by
    rw [effectiveValue, show (layer (some overrides)).lookup workspaceKey = _ from hv]
    rfl
  rw [heffective] at hfollows
  obtain ⟨path, hexpanded, hfolder⟩ :=
    hfollows.folder text rfl (namesDirectory_text_iff.mpr hblank)
  rw [hpath] at hexpanded
  obtain rfl := Except.ok.inj hexpanded
  refine ⟨osx, linux, hprofiles, hfolder, ?_⟩
  have hnone : notices = [] := by
    have hexclusive := hfollows.exclusive
    rw [hfolder] at hexclusive
    exact List.length_eq_zero_iff.mp (Nat.add_left_cancel hexclusive)
  rw [hnotices, hnone]
  rfl

/-! ## Whether profiles can be declared -/

/-- Does a setting name a directory in the home directory of somebody else? -/
def NamesElsewhere (setting : Option Value) : Prop :=
  ∃ text, setting = some (.text text) ∧
    (Path.ofText (Text.trimmed text)).beginsElsewhere = true

/-- A blank text names nothing. -/
theorem not_blank_of_beginsElsewhere {text : String}
    (h : (Path.ofText (Text.trimmed text)).beginsElsewhere = true) :
    Text.isAllBlank text = false := by
  rw [← Text.isEmpty_trimmed, Bool.eq_false_iff]
  intro hempty
  rw [String.isEmpty_iff.mp hempty] at h
  exact absurd h (by decide +kernel)

/-- **Profiles are declared unless the setting names the home directory of somebody else.**  That
one is not known, and then nothing has been reported. -/
theorem declareFrom_succeeds_iff (settings : MergedSettings) (audience : Audience) {s : Session}
    (hhome : s.environment.home.startsWith "/" = true) :
    let run := (declareFrom settings audience).perform s
    ((∃ profiles, run.1 = .ok profiles) ↔ ¬ NamesElsewhere (settings.get? workspaceKey)) ∧
    (∀ text, settings.get? workspaceKey = some (.text text) →
      (Path.ofText (Text.trimmed text)).beginsElsewhere = true →
      run = (.error (Failure.ofRejection "SharedFolder"
        (rejectionOf (Path.ofText (Text.trimmed text)).elsewhereFault)), s)) := by
  intro run
  have hfails : ∀ text, settings.get? workspaceKey = some (.text text) →
      (Path.ofText (Text.trimmed text)).beginsElsewhere = true →
      run = (.error (Failure.ofRejection "SharedFolder"
        (rejectionOf (Path.ofText (Text.trimmed text)).elsewhereFault)), s) := by
    intro text htext helsewhere
    have hblank := not_blank_of_beginsElsewhere helsewhere
    have hrun : run = _ := perform_declareProfiles (settings.get? workspaceKey) audience s
    rw [hrun, htext, folders_ofSetting_text hblank,
      Path.expandHome_of_beginsElsewhere _ helsewhere]
  refine ⟨⟨?_, fun hown => ?_⟩, hfails⟩
  · rintro ⟨profiles, hok⟩ ⟨text, htext, helsewhere⟩
    rw [hfails text htext helsewhere] at hok
    cases hok
  · have hrun : run = _ := perform_declareProfiles (settings.get? workspaceKey) audience s
    rw [hrun]
    have hreading := workspaceReading_ofSetting (settings.get? workspaceKey)
    generalize Workspace.ofSetting (settings.get? workspaceKey) = workspace at hreading
    generalize settings.get? workspaceKey = setting at hreading hown
    cases hreading with
    | directory text hblank =>
      have hbegins : (Path.ofText (Text.trimmed text)).beginsElsewhere = false := by
        rw [Bool.eq_false_iff]
        exact fun helsewhere => hown ⟨text, rfl, helsewhere⟩
      obtain ⟨path, hpath⟩ := Path.exists_expandHome_eq_ok hhome hbegins
      rw [folders_at_of_not_blank hblank, hpath]
      exact ⟨_, rfl⟩
    | otherKind v hkind => exact ⟨_, rfl⟩
    | nothing _ hdirectory hkind => exact ⟨_, rfl⟩

theorem declareFrom_succeeds_ownHome :
    ∃ profiles, ((declareFrom ⟨[(workspaceKey, .text "./~/work")], []⟩ .caller).perform
      ownWorkspace).1 = .ok profiles := by
  have hhome : ownWorkspace.environment.home.startsWith "/" = true := by decide +kernel
  refine (declareFrom_succeeds_iff _ .caller hhome).1.mpr ?_
  rintro ⟨text, htext, helsewhere⟩
  obtain rfl : "./~/work" = text := Value.text.inj (Option.some.inj htext)
  exact absurd helsewhere (by decide +kernel)

/-- A directory in the home directory of somebody else is a text with more than blanks in it, but no
profiles are declared for it. -/
theorem not_declares_elsewhere :
    let settings : MergedSettings := ⟨[(workspaceKey, .text "~nosuchuser_q/w")], []⟩
    NamesDirectory (settings.get? workspaceKey) ∧
      ownWorkspace.environment.home.startsWith "/" = true ∧
      ((declareFrom settings .caller).perform ownWorkspace).1 = .error (.home .unknownHome) := by
  intro settings
  have hblank : Text.isAllBlank "~nosuchuser_q/w" = false := by decide +kernel
  refine ⟨namesDirectory_text_iff.mpr hblank, by decide +kernel, ?_⟩
  have hrun := perform_declareProfiles (settings.get? workspaceKey) .caller ownWorkspace
  have hbegins : (Path.ofText (Text.trimmed "~nosuchuser_q/w")).beginsElsewhere = true := by
    decide +kernel
  rw [show settings.get? workspaceKey = some (.text "~nosuchuser_q/w") from rfl,
    folders_ofSetting_text hblank, Path.expandHome_of_beginsElsewhere _ hbegins] at hrun
  exact congrArg Prod.fst hrun

end DevMachines
