import DevMachines.CommandLine.Reader
import DevMachines.Files.Path

/-!
# What a command line asks for

The options that have been given, as values of the types that the commands work with.  An option
that is given several times counts the last time.
-/

namespace DevMachines.CommandLine

/-- How settings are printed. -/
inductive SettingsFormat where
  | yaml
  | json
  deriving DecidableEq, Repr

/-- How profiles are printed. -/
inductive ProfilesFormat where
  | table
  | yaml
  | json
  deriving DecidableEq, Repr

/-- A command. -/
inductive Command where
  | settings (format : SettingsFormat)
  | profiles (format : ProfilesFormat)
  /-- An empty name of a file counts as none. -/
  | vagrantfile (output : Option String)
  | init (force : Bool)
  deriving DecidableEq, Repr

/-- The name of a command. -/
def Command.name : Command → String
  | .settings _ => "settings"
  | .profiles _ => "profiles"
  | .vagrantfile _ => "vagrantfile"
  | .init _ => "init"

/-- How the run reports about itself. -/
structure LogOptions where
  level : String := "WARNING"
  json : Bool := false
  file : Option Path := none
  deriving DecidableEq, Repr

/-- What a command line asks for. -/
structure Arguments where
  root : Option Path := none
  log : LogOptions := {}
  command : Option Command := none
  deriving DecidableEq, Repr

/-- The last value that an option has been given. -/
def lastValue? (name : String) (given : List Given) : Option String :=
  (given.reverse.find? (·.name == name)).bind (·.value)

/-- Has an option been given? -/
def isGiven (name : String) (given : List Given) : Bool := given.any (·.name == name)

/-- The command of a name with its options. -/
def Command.ofGiven (name : String) (given : List Given) : Command :=
  match name with
  | "settings" => .settings (if lastValue? "--format" given = some "json" then .json else .yaml)
  | "profiles" =>
      .profiles <| match lastValue? "--format" given with
        | some "json" => .json
        | some "yaml" => .yaml
        | _ => .table
  | "vagrantfile" =>
      .vagrantfile <| match lastValue? "--output" given with
        | some "" => none
        | output => output
  | _ => .init (isGiven "--force" given)

/-- What the words of a command line ask for. -/
def Arguments.ofLine (line : Line) : Arguments where
  root := (lastValue? "--root" line.given).map Path.ofText
  log := {
    level := (lastValue? "--log-level" line.given).getD "WARNING"
    json := isGiven "--json-logs" line.given
    file := (lastValue? "--log-file" line.given).map Path.ofText }
  command := line.command.map fun (name, given) => Command.ofGiven name given

/-- Reads the command line of this program. -/
def Arguments.read (words : List String) : Except Stopped Arguments :=
  (readLine moqtbox words).map Arguments.ofLine

end DevMachines.CommandLine
