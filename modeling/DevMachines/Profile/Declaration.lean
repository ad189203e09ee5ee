import DevMachines.Log.Event
import DevMachines.Profile.Validation
import DevMachines.Settings.Location

/-!
# The profiles of a project

Two machines are declared.  `osx` is a bare box.  `linux` installs its dependencies and sets itself
up, and when the settings name a workspace directory of the host, it shares that directory.

What the settings say about the workspace is one of three things: a path, something that is no text,
or nothing usable.  Exactly the first declares a folder; the other two are reported to the user.
-/

namespace DevMachines

/-- The setting that names the workspace directory of the host. -/
def workspaceKey : String := "moqt_workspace_path"

/-- The box of the bare profile. -/
def osxBox : String := "ramsey/macos-catalina"

/-- The box of the provisioned profile. -/
def linuxBox : String := "ubuntu/jammy64"

/-- Where the workspace is seen in the machine. -/
def workspaceGuestPath : String := "/home/vagrant/moqt_workspace"

/-- What the settings say about the workspace. -/
inductive Workspace where
  | at (path : String)
  | notText (kind : String)
  | unset
  deriving DecidableEq, Repr

/-- Reads the setting for the workspace. -/
def Workspace.ofSetting : Option Value → Workspace
  | some (.text s) => if Text.isAllBlank s then .unset else .at s
  | some .null => .unset
  | none => .unset
  | some v => .notText v.kindName

/-- The event of declaring the workspace. -/
def Workspace.event : Workspace → Log.Event
  | .at path => ⟨.debug, "workspace_mount_declared", [("host_path", .text path)]⟩
  | .notText kind =>
      ⟨.warning, "workspace_path_not_a_string",
        [("key", .text workspaceKey), ("value_type", .text kind)]⟩
  | .unset => ⟨.info, "workspace_mount_skipped", [("key", .text workspaceKey)]⟩

/-- What the user is told about the workspace. -/
def Workspace.notice : Workspace → Option String
  | .at _ => none
  | .notText kind =>
      some s!"{workspaceKey} must be a directory path, got {kind}; no shared folder will be mounted"
  | .unset => some s!"{workspaceKey} is not set; no shared folder will be mounted"

/-- The folders that the workspace declares. -/
def Workspace.folders (home : String) : Workspace → Validated (List SharedFolder)
  | .at path => do
      let folder ← SharedFolder.ofValue home
        (.record [("host_path", .text path), ("guest_path", .text workspaceGuestPath)])
      .ok [folder]
  | _ => .ok []

/-- The bare profile. -/
def osxProfile : Profile := { name := "osx", box := osxBox }

/-- The steps of the provisioned profile. -/
def linuxSteps : List Step := [
  { name := "install_dependencies", path := Settings.scriptPath "install_dependencies.sh" },
  { name := "moqt_setup", path := Settings.scriptPath "moqt_setup.sh" }]

/-- The provisioned profile with its folders. -/
def linuxProfile (folders : List SharedFolder) : Profile :=
  { name := "linux", box := linuxBox, steps := linuxSteps, folders }

/-- All profiles, in order. -/
def declaredProfiles (linux : Profile) : ProfileSet := ⟨[osxProfile, linux]⟩

end DevMachines
