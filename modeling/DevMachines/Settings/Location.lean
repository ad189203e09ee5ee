import DevMachines.Environment
import DevMachines.Log.Event

/-!
# Where the settings are

The settings of a project are two documents with fixed names in the project root: the defaults that
are shipped, and the user's own settings.  The root is the directory that is given, else the one that
the environment names, else the working directory; a leading tilde stands for the home directory.
That the environment has decided is worth an event.
-/

namespace DevMachines.Settings

/-- The name of the shipped defaults, which must exist. -/
def defaultsName : String := "settings.yml.example"

/-- The name of the user's own settings, which may be absent. -/
def overridesName : String := "settings.yml"

/-- The directory of the provisioning scripts, below the project root. -/
def scriptDirectory : String := "scripts"

/-- The project root that the environment names, unless it is empty. -/
def environmentRoot (env : Environment) : Option String :=
  match env.configuredRoot with
  | some text => if text.isEmpty then none else some text
  | none => none

/-- The project root. -/
def projectRoot (env : Environment) (given : Option Path) : Except HomeFault Path :=
  match given with
  | some p => p.expandHome env.home
  | none =>
      match environmentRoot env with
      | some text => (Path.ofText text).expandHome env.home
      | none => .ok env.workingDirectory

/-- The events of looking for the project root. -/
def projectRootEvents (env : Environment) (given : Option Path) : List Log.Event :=
  match given, environmentRoot env with
  | none, some text => [⟨.debug, "project_root_from_env", [("root", .text text)]⟩]
  | _, _ => []

/-- The path of a script, relative to the project root. -/
def scriptPath (name : String) : String := scriptDirectory ++ "/" ++ name

end DevMachines.Settings
