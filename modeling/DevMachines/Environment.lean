import DevMachines.Files.Path

/-!
# What surrounds a run

The part of the surroundings that the program asks for: the home directory, the project root that
the user has configured, and the directory that relative paths start from.
-/

namespace DevMachines

/-- The surroundings of a run. -/
structure Environment where
  home : String
  /-- The project root that the environment names; an empty one counts as none. -/
  configuredRoot : Option String
  workingDirectory : Path
  /-- Is standard error a terminal that shows colours? -/
  colours : Bool := false
  deriving Repr, Inhabited

end DevMachines
