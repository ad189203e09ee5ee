import DevMachines.CommandLine.Arguments
import DevMachines.CommandLine.Help
import DevMachines.Profile.Export
import DevMachines.Session.Project
import DevMachines.Terminal.Panel
import DevMachines.Value.Json

/-!
# Running a command line

A run reads the command line, sets the logging up, and does what the command says.  Results go to
standard output; notices and log lines go to standard error, with one exception: beside a table,
notices are for the same reader as the table.

Settings that cannot be read, failures of the file system and interruptions end a command with a
report and the exit code one.  Any other failure is not the user's to mend and is handed on.

Only two commands write a file, and each as its last act before it says so: nothing that can fail
lies between reading the settings and writing the file as a whole.
-/

namespace DevMachines.CommandLine

open Session

/-- How a run ends. -/
inductive Exit where
  | code (n : Nat)
  /-- The command line asked for a description or could not be read. -/
  | early (n : Nat)
  deriving DecidableEq, Repr

/-! ## Printing with markup -/

/-- Prints a text with markup in the width of the terminal. -/
def printMarkup (columns : Nat) (markup : String) : Activity Unit := do
  let text ← orFail markupFailure (Terminal.render markup.toList)
  print (Terminal.printed columns text)

/-- Prints a text with markup whose lines are left to the terminal. -/
def printLong (markup : String) : Activity Unit := do
  print (← orFail markupFailure (unwrapped markup))

/-- A text that markup shows as it is. -/
def escaped (text : String) : String := String.ofList (Terminal.escape text.toList)

/-- What is printed above a description when no command has been given. -/
def printBanner (columns : Nat) : Activity Unit := do
  printMarkup columns "[bold cyan]moqtbox[/] [dim]- MoQT development VMs[/]"
  printMarkup columns ("  Version " ++ version ++ "\n")

/-! ## Commands -/

/-- Prints the documents that contributed to settings in a panel. -/
def printSources (columns : Nat) (settings : Settings.MergedSettings) : Activity Unit := do
  let markup := "\n".intercalate (settings.sources.map fun p => escaped p.toText)
  let text ← orFail markupFailure (Terminal.render markup.toList)
  print (Terminal.panel columns "Settings sources" text)

/-- The entries of settings as pairs of values. -/
def valueEntries (settings : Settings.MergedSettings) : List (Value × Value) :=
  settings.entries.map fun (key, v) => (.text key, v)

/-- Prints the effective settings. -/
def runSettings (columns : Nat) (root : Option Path) (format : SettingsFormat) :
    Activity Unit := do
  let settings ← loadSettings root .errors
  match format with
  | .json => do
      let json ← orFail .json (Value.toJson Value.plain settings.toValue)
      print (json.indented 0 ++ "\n")
  | .yaml => do
      printSources columns settings
      if settings.entries.isEmpty then printMarkup columns "[dim]No settings defined[/]"
      else if settings.toValue.holdsLongInt then throw (.value .tooLong)
      else print (Yaml.render (valueEntries settings))

/-- Who is told about the workspace when profiles are printed. -/
def ProfilesFormat.audience : ProfilesFormat → Audience
  | .table => .output
  | _ => .errors

/-- Profiles as they are printed. -/
def ProfilesFormat.text (columns : Nat) (format : ProfilesFormat) (s : ProfileSet) :
    Except Terminal.MarkupFault String :=
  match format with
  | .table => Overview.print columns s
  | .yaml => .ok s.yaml
  | .json => .ok (s.json ++ "\n")

/-- Prints the declared profiles. -/
def runProfiles (columns : Nat) (root : Option Path) (format : ProfilesFormat) :
    Activity Unit := do
  let settings ← loadSettings root .nobody
  let profiles ← declareFrom settings format.audience
  print (← orFail markupFailure (format.text columns profiles))

/-- Writes a file as a whole. -/
def writeFile (path : Path) (octets : Text.Octets) : Activity Unit := do
  if path.hasNul then throw .nulInPath
  let s ← get
  let files ← orFail (.file · path.toText)
    (s.files.write s.environment.workingDirectory path octets)
  set { s with files }

/-- Prints the Vagrantfile of the declared profiles, or writes it to a file. -/
def runVagrantfile (root : Option Path) (output : Option String) : Activity Unit := do
  let settings ← loadSettings root .nobody
  let profiles ← declareFrom settings .errors
  match output with
  | none => print profiles.vagrantfile
  | some name => do
      let path := Path.ofText name
      writeFile path (Text.encode profiles.vagrantfile)
      tell .errors ("Wrote " ++ path.toText)

/-- Is there something under a path? -/
def isThere (path : Path) : Activity Bool := do
  let s ← get
  orFail (.file · path.toText) (s.files.contains s.environment.workingDirectory path)

/-- The octets of a file. -/
def readFile (path : Path) : Activity Text.Octets := do
  let s ← get
  orFail (.file · path.toText) (s.files.read s.environment.workingDirectory path)

/-- Copies the shipped defaults to the user's own settings, which are only replaced if that is asked
for. -/
def runInit (columns : Nat) (root : Option Path) (force : Bool) : Activity Nat := do
  let defaults ← defaultsPath root
  let overrides ← overridesPath root
  if !(← isThere defaults) then
    printMarkup columns (signed "red" "❌ Default settings not found: " defaults.toText)
    pure 1
  else if (← isThere overrides) && !force then
    printMarkup columns (signed "red" "❌ Settings already exist: " overrides.toText)
    printMarkup columns "[dim]Use --force to overwrite[/]"
    pure 1
  else
    writeFile overrides (← readFile defaults)
    printMarkup columns (signed "green" "✅ Created " overrides.toText)
    printMarkup columns "\n[dim]Next steps:[/]"
    printMarkup columns
      ("  1. Edit the settings: [cyan]nano " ++ escaped overrides.toText ++ "[/]")
    printMarkup columns "  2. Check the result: [cyan]moqtbox profiles[/]"
    pure 0

/-- Does what a command says, and returns the exit code. -/
def Command.run (columns : Nat) (root : Option Path) : Command → Activity Nat
  | .settings format => do
      runSettings columns root format
      pure 0
  | .profiles format => do
      runProfiles columns root format
      pure 0
  | .vagrantfile output => do
      runVagrantfile root output
      pure 0
  | .init force => runInit columns root force

/-! ## The run -/

/-- Reports a failure to the user, or hands it on. -/
def reportFailure (columns : Nat) (failure : Failure) : Activity Nat := do
  match failure with
  | .interrupted => printMarkup columns "\n[yellow]Interrupted.[/]"
  | .document fault => printLong (signed "red" "❌ " fault.message)
  | .file .. => printLong (signed "red" "❌ Error: " failure.message)
  | _ => throw failure
  pure 1

/-- Does what the arguments ask for. -/
def Arguments.run (columns : Nat) (a : Arguments) : Activity Exit := do
  configure a.log.level a.log.json a.log.file
  let root ← projectRoot a.root
  bindContext (a.command.map Command.name) root.toText
  match a.command with
  | none => do
      printBanner columns
      print (moqtbox.help columns)
      pure (.code 0)
  | some command =>
      match ← attempt (command.run columns a.root) with
      | .ok code => pure (.code code)
      | .error failure => do pure (.code (← reportFailure columns failure))

/-- Runs a command line on a terminal of a width. -/
def run (columns : Nat) (words : List String) : Activity Exit := do
  match Arguments.read words with
  | .ok a => a.run columns
  | .error stopped => do
      let report := stopped.report moqtbox version columns
      print report.output
      printError report.errors
      pure (.early report.exitCode)

end DevMachines.CommandLine
