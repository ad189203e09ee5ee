import DevMachines.Profile.Overview
import DevMachines.Profile.Vagrantfile
import DevMachines.Json
import DevMachines.Yaml.Render

/-!
# The forms of an export

A set of profiles is exported as YAML or as JSON, both with the plain form of the profiles, or as a
Vagrantfile.  The plain form has no kind of value that JSON lacks, so its JSON form is given directly
and writing it cannot fail.
-/

namespace DevMachines

/-- The version of the program. -/
def version : String := "0.1.0"

/-- The JSON form of a step. -/
def Step.toJson (s : Step) : Json :=
  .obj [("name", .str s.name), ("kind", .str s.kind.name), ("path", .str s.path),
    ("privileged", .bool s.privileged)]

/-- The JSON form of a shared folder. -/
def SharedFolder.toJson (f : SharedFolder) : Json :=
  .obj [("host_path", .str f.hostPath), ("guest_path", .str f.guestPath)]

/-- The JSON form of a profile. -/
def Profile.toJson (p : Profile) : Json :=
  .obj [("name", .str p.name), ("box", .str p.box),
    ("provisioners", .arr (p.steps.map Step.toJson)),
    ("synced_folders", .arr (p.folders.map SharedFolder.toJson))]

namespace ProfileSet

/-- The JSON form of a set of profiles. -/
def toJson (s : ProfileSet) : Json := .obj [("profiles", .arr (s.profiles.map Profile.toJson))]

/-- The profiles as JSON. -/
def json (s : ProfileSet) : String := s.toJson.indented 0

/-- The profiles as YAML. -/
def yaml (s : ProfileSet) : String :=
  Yaml.render [(.text "profiles", .list none (s.profiles.map Profile.toValue))]

/-- The profiles as a Vagrantfile. -/
def vagrantfile (s : ProfileSet) : String := Vagrantfile.render version s

end ProfileSet
end DevMachines
