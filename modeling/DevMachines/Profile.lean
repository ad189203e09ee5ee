import DevMachines.Value.Display

/-!
# Machine profiles

A profile declares one virtual machine: its name, the box it starts from, the steps that provision
it after the boot, in order, and the directories of the host that it shares.  A `ProfileSet` is all
profiles of a project in the order of their declaration.

Every type has a plain form, the `Value` in which it is exported, and a display form, which names
the type and its fields.
-/

namespace DevMachines

/-- How a provisioning step is run. -/
inductive StepKind where
  | shell
  deriving DecidableEq, Repr, Inhabited

/-- The name of a kind of step. -/
def StepKind.name : StepKind → String
  | .shell => "shell"

/-- A provisioning step: a script that is run in the machine. -/
structure Step where
  name : String
  kind : StepKind := .shell
  /-- The script, relative to the project root. -/
  path : String
  /-- Is it run with elevated privileges? -/
  privileged : Bool := false
  deriving DecidableEq, Repr, Inhabited

/-- A directory of the host that a machine sees. -/
structure SharedFolder where
  hostPath : String
  guestPath : String
  deriving DecidableEq, Repr, Inhabited

/-- A named machine. -/
structure Profile where
  name : String
  box : String
  steps : List Step := []
  folders : List SharedFolder := []
  deriving DecidableEq, Repr, Inhabited

/-- Profiles in the order of their declaration. -/
structure ProfileSet where
  profiles : List Profile
  deriving DecidableEq, Repr, Inhabited

/-- A map with texts as keys. -/
def Value.record (fields : List (String × Value)) : Value :=
  .map none (fields.map fun (name, value) => (.text name, value))

/-! ## Plain forms -/

/-- The plain form of a step. -/
def Step.toValue (s : Step) : Value :=
  .record [("name", .text s.name), ("kind", .text s.kind.name), ("path", .text s.path),
    ("privileged", .bool s.privileged)]

/-- The plain form of a shared folder. -/
def SharedFolder.toValue (f : SharedFolder) : Value :=
  .record [("host_path", .text f.hostPath), ("guest_path", .text f.guestPath)]

/-- The plain form of a profile. -/
def Profile.toValue (p : Profile) : Value :=
  .record [("name", .text p.name), ("box", .text p.box),
    ("provisioners", .list none (p.steps.map Step.toValue)),
    ("synced_folders", .list none (p.folders.map SharedFolder.toValue))]

/-- The plain form of a set of profiles. -/
def ProfileSet.toValue (s : ProfileSet) : Value :=
  .record [("profiles", .list none (s.profiles.map Profile.toValue))]

/-! ## Display forms -/

/-- A type's name with its fields in parentheses. -/
def displayRecord (name : String) (fields : List String) : String :=
  name ++ "(" ++ ", ".intercalate fields ++ ")"

/-- Items in brackets. -/
def displayList (items : List String) : String := "[" ++ ", ".intercalate items ++ "]"

/-- The fields of a step. -/
def Step.displayFields (s : Step) : List String :=
  ["name=" ++ Text.quoted s.name, "kind=" ++ Text.quoted s.kind.name,
    "path=" ++ Text.quoted s.path, "privileged=" ++ (Value.bool s.privileged).display]

/-- The display form of a step. -/
def Step.display (s : Step) : String := displayRecord "ProvisionStep" s.displayFields

/-- The fields of a shared folder. -/
def SharedFolder.displayFields (f : SharedFolder) : List String :=
  ["host_path=" ++ Text.quoted f.hostPath, "guest_path=" ++ Text.quoted f.guestPath]

/-- The display form of a shared folder. -/
def SharedFolder.display (f : SharedFolder) : String :=
  displayRecord "SharedFolder" f.displayFields

/-- The fields of a profile. -/
def Profile.displayFields (p : Profile) : List String :=
  ["name=" ++ Text.quoted p.name, "box=" ++ Text.quoted p.box,
    "provisioners=" ++ displayList (p.steps.map Step.display),
    "synced_folders=" ++ displayList (p.folders.map SharedFolder.display)]

/-- The display form of a profile. -/
def Profile.display (p : Profile) : String := displayRecord "VMProfile" p.displayFields

/-- The fields of a set of profiles. -/
def ProfileSet.displayFields (s : ProfileSet) : List String :=
  ["profiles=" ++ displayList (s.profiles.map Profile.display)]

/-- The display form of a set of profiles. -/
def ProfileSet.display (s : ProfileSet) : String := displayRecord "ProfileSet" s.displayFields

/-! ## Looking up a profile -/

namespace ProfileSet

/-- The names of the profiles, in order. -/
def names (s : ProfileSet) : List String := s.profiles.map (·.name)

/-- The first profile with a name. -/
def get? (s : ProfileSet) (name : String) : Option Profile :=
  s.profiles.find? fun p => p.name == name

/-- The profile with a name, or the name that is missing. -/
def get (s : ProfileSet) (name : String) : Except String Profile :=
  match s.get? name with
  | some p => .ok p
  | none => .error name

end ProfileSet
end DevMachines
