import DevMachines.CommandLine.Run
import Std.Time

/-!
# The program

The outer layer: it looks at the part of the file system that a command line can touch, runs the
command line in a session with just that part, and then writes the files that the session has
changed.  Everything that is decided is decided in the session.

The clock of a session has all its readings beforehand, so an operation takes no time here.
-/

namespace DevMachines.Main

/-- The path of a place in text. -/
def placeText (place : Place) : String := "/" ++ "/".intercalate place

/-- Looks at a place. -/
def look (place : Place) (tree : FileTree) : IO FileTree := do
  if (tree.get? place).isSome then return tree
  let path := (← IO.currentDir) / placeText place
  if ← path.isDir then return tree.set place .directory
  if ← path.pathExists then
    return tree.set place (.file (← IO.FS.readBinFile path).toList)
  return tree

/-- Looks at all places on a way. -/
def lookAlong (place : Place) : List String → FileTree → IO FileTree
  | [], tree => look place tree
  | name :: rest, tree => do
      let tree ← look place tree
      lookAlong (if name == ".." then place.dropLast else place ++ [name]) rest tree

/-- The paths that a command line can touch. -/
def touchedPaths (env : Environment) (words : List String) : List Path :=
  match CommandLine.Arguments.read words with
  | .error _ => []
  | .ok a =>
      let roots := match Settings.projectRoot env a.root with
        | .ok root => [root.child Settings.defaultsName, root.child Settings.overridesName]
        | .error _ => []
      let outputs := match a.command with
        | some (.vagrantfile (some name)) => [Path.ofText name]
        | _ => []
      roots ++ outputs ++ a.log.file.toList

/-- The part of the file system that a command line can touch. -/
def touchedFiles (env : Environment) (words : List String) : IO FileTree := do
  let here := env.workingDirectory
  let mut tree ← lookAlong [] here.names FileTree.empty
  for p in touchedPaths env words do
    if !p.hasNul then
      tree ← lookAlong (if p.isAbsolute then [] else here.names) p.names tree
  return tree

/-- Writes the files that differ. -/
def writeChanges (before after : FileTree) : IO Unit := do
  for (place, entry) in after.entries do
    if before.get? place != some entry then
      match entry with
      | .file octets =>
          IO.FS.writeBinFile ((← IO.currentDir) / placeText place) ⟨octets.toArray⟩
      | .directory => pure ()

/-- The time in universal time, to the microsecond. -/
def timeText : IO String := do
  let now := Std.Time.DateTime.ofTimestamp (← Std.Time.Timestamp.now) .UTC
  return now.format "uuuu-MM-dd" ++ "T" ++ now.format "HH:mm:ss.SSSSSS" ++ "Z"

/-- The width of the terminal. -/
def terminalWidth : IO Nat := do
  match ((← IO.getEnv "COLUMNS").getD "").toNat? with
  | some n => return if n = 0 then 80 else n
  | none => return 80

/-- The surroundings of this run. -/
def surroundings : IO Environment := do
  return {
    home := (← IO.getEnv "HOME").getD ""
    configuredRoot := ← IO.getEnv "MOQTBOX_ROOT"
    workingDirectory := Path.ofText (toString (← IO.currentDir))
    colours := ← (← IO.getStderr).isTty }

/-- Runs a command line, and returns the exit code. -/
def runLine (words : List String) : IO Nat := do
  let environment ← surroundings
  let files ← touchedFiles environment words
  let session : Session := { environment, files, time := ← timeText }
  let (result, after) :=
    Activity.perform (CommandLine.run (← terminalWidth) words) session
  writeChanges files after.files
  (← IO.getStdout).putStr after.output
  (← IO.getStderr).putStr after.errors
  match result with
  | .ok (.code n) => return n
  | .ok (.early n) => return n
  | .error failure => do
      (← IO.getStderr).putStrLn (failure.kindName ++ ": " ++ failure.message)
      return 1

end DevMachines.Main

/-- The program. -/
def main (words : List String) : IO UInt32 := do
  return (← DevMachines.Main.runLine words).toUInt32
