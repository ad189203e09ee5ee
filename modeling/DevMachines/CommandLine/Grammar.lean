/-!
# What a command line may say

A program takes options and then perhaps a command, which takes options of its own.  An option has
one or several names, does something or sets something, and may need a value.  `moqtbox` at the end
is the command line of this program.
-/

namespace DevMachines.CommandLine

/-- The value that an option needs. -/
structure OptionValue where
  /-- What stands for the value in a description. -/
  placeholder : String
  /-- The only values that are allowed; none means that all are. -/
  choices : List String := []
  deriving DecidableEq, Repr

/-- What an option is for. -/
inductive OptionRole where
  | help
  | version
  | setting
  deriving DecidableEq, Repr

/-- An option. -/
structure CommandOption where
  names : List String
  role : OptionRole := .setting
  value : Option OptionValue := none
  description : String
  deriving DecidableEq, Repr

/-- A command. -/
structure CommandForm where
  name : String
  description : String
  options : List CommandOption
  deriving DecidableEq, Repr

/-- A program. -/
structure ProgramForm where
  name : String
  description : String
  options : List CommandOption
  commands : List CommandForm
  deriving DecidableEq, Repr

/-- All names of options, in order, each with its option. -/
def optionNames (options : List CommandOption) : List (String × CommandOption) :=
  options.flatMap fun o => o.names.map (·, o)

/-- The names of an option, as reports give them. -/
def CommandOption.title (o : CommandOption) : String := "/".intercalate o.names

/-! ## The command line of this program -/

/-- The option that asks for a description. -/
def helpOption : CommandOption where
  names := ["-h", "--help"]
  role := .help
  description := "show this help message and exit"

/-- The option for the form of what is printed. -/
def formatOption (choices : List String) (description : String) : CommandOption where
  names := ["--format", "-f"]
  value := some { placeholder := "FORMAT", choices }
  description := description

/-- The command line of this program. -/
def moqtbox : ProgramForm where
  name := "moqtbox"
  description := "Declare the MoQT development VMs"
  options := [
    helpOption,
    { names := ["--version"], role := .version
      description := "show program's version number and exit" },
    { names := ["--root"], value := some { placeholder := "ROOT" }
      description :=
        "Project root holding settings.yml(.example) (default: $MOQTBOX_ROOT or cwd)" },
    { names := ["--log-level"]
      value := some
        { placeholder := "LOG_LEVEL", choices := ["DEBUG", "INFO", "WARNING", "ERROR"] }
      description := "Log level (default: WARNING)" },
    { names := ["--json-logs"], description := "Emit logs as JSON" },
    { names := ["--log-file"], value := some { placeholder := "LOG_FILE" }
      description := "Also write JSON logs here" }]
  commands := [
    { name := "settings", description := "Show merged settings"
      options := [helpOption, formatOption ["yaml", "json"] "Output format"] },
    { name := "profiles", description := "Show declared VM profiles"
      options := [helpOption,
        formatOption ["table", "yaml", "json"] "Output format (default: table)"] },
    { name := "vagrantfile", description := "Render a Vagrantfile for the declared profiles"
      options := [helpOption,
        { names := ["--output", "-o"], value := some { placeholder := "OUTPUT" }
          description := "Write to file instead of stdout" }] },
    { name := "init", description := "Create settings.yml from settings.yml.example"
      options := [helpOption,
        { names := ["--force"], description := "Overwrite existing settings.yml" }] }]

end DevMachines.CommandLine
