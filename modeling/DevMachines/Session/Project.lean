import DevMachines.Profile.Declaration
import DevMachines.Session.Resolution

/-!
# The settings and profiles of a project

Loading the settings of a project is an operation in the log.  Declaring its profiles reports what
the settings say about the workspace.
-/

namespace DevMachines.Session

open Settings (MergedSettings)

/-- The keys that the settings of a project should have. -/
def expectedKeys : List String := [workspaceKey]

/-- Resolves the settings of a project as an operation. -/
def loadSettings (given : Option Path) (audience : Audience) : Activity MergedSettings := do
  let root ← projectRoot given
  operation "resolve_settings" [("root", .text root.toText)] fun _ =>
    resolveProject given expectedKeys audience

/-- Declares the provisioned profile from the setting for the workspace. -/
def declareLinux (setting : Option Value) (audience : Audience) : Activity Profile := do
  let s ← get
  let workspace := Workspace.ofSetting setting
  let folders ← orFail (Failure.ofRejection "SharedFolder") (workspace.folders s.environment.home)
  emit workspace.event
  match workspace.notice with
  | some message => tell audience message
  | none => pure ()
  pure (linuxProfile folders)

/-- Declares all profiles from the setting for the workspace. -/
def declareProfiles (setting : Option Value) (audience : Audience) : Activity ProfileSet := do
  pure (declaredProfiles (← declareLinux setting audience))

/-- Declares all profiles from settings. -/
def declareFrom (settings : MergedSettings) (audience : Audience) : Activity ProfileSet :=
  declareProfiles (settings.get? workspaceKey) audience

end DevMachines.Session
