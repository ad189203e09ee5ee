import DevMachines.Profile
import DevMachines.Files.Path
import DevMachines.Text.Blank
import DevMachines.Value.Equality

/-!
# Profiles from data

Data from outside becomes a profile only if it has the right shape.  Everything that is wrong is
reported, each fault with its place, in the order of the fields; a collection as a whole is judged
only when all its items are right.

Reading is generous where nothing is lost: blanks around a name are dropped, a truth value may be
written as a word or as zero or one, and octets that are characters are a text.  A host path is
brought into normal form, with its leading tilde replaced.  If a tilde cannot be replaced, nothing
else matters: that is no fault of the data, and it ends the validation.
-/

namespace DevMachines

/-- A step on the way to a place in the data. -/
inductive DataStep where
  | field (name : String)
  | item (index : Nat)
  deriving DecidableEq, Repr

/-- What a rule of this program forbids. -/
inductive RuleFault where
  | blankText
  | blankHostPath
  | nulCharacter
  | relativeGuestPath (path : String)
  | duplicateSteps (names : List String)
  | duplicateProfiles (names : List String)
  deriving DecidableEq, Repr

/-- What is wrong at a place. -/
inductive DataFaultKind where
  | missing
  | notText
  | notCharacters
  | notShell
  | notTruth
  | badTruth
  | notList
  | notRecord (type : String)
  /-- A record that has been read does not change. -/
  | frozen
  | rule (fault : RuleFault)
  deriving DecidableEq, Repr

/-- A fault with its place. -/
structure DataFault where
  place : List DataStep
  kind : DataFaultKind
  deriving DecidableEq, Repr

/-- Why data was rejected: the faults of the data, or a home directory that cannot be known. -/
inductive Rejection where
  | faults (list : List DataFault)
  | unknownHome
  deriving DecidableEq, Repr

/-- The wording of a broken rule. -/
def RuleFault.message : RuleFault → String
  | .blankText => "must not be empty"
  | .blankHostPath => "Host path cannot be empty"
  | .nulCharacter => "embedded null byte"
  | .relativeGuestPath path => s!"Guest path must be absolute: {path}"
  | .duplicateSteps names => "Duplicate provisioning steps: " ++ ", ".intercalate names
  | .duplicateProfiles names =>
      "Profile names must be unique: " ++ displayList (names.map Text.quoted)

namespace DataFaultKind

/-- The class of a fault, as reports name it. -/
def code : DataFaultKind → String
  | .missing => "missing"
  | .notText => "string_type"
  | .notCharacters => "string_unicode"
  | .notShell => "literal_error"
  | .notTruth => "bool_type"
  | .badTruth => "bool_parsing"
  | .notList => "list_type"
  | .notRecord _ => "model_type"
  | .frozen => "frozen_instance"
  | .rule _ => "value_error"

/-- The wording of a fault. -/
def message : DataFaultKind → String
  | .missing => "Field required"
  | .notText => "Input should be a valid string"
  | .notCharacters =>
      "Input should be a valid string, unable to parse raw data as a unicode string"
  | .notShell => "Input should be 'shell'"
  | .notTruth => "Input should be a valid boolean"
  | .badTruth => "Input should be a valid boolean, unable to interpret input"
  | .notList => "Input should be a valid list"
  | .notRecord type => "Input should be a valid dictionary or instance of " ++ type
  | .frozen => "Instance is frozen"
  | .rule fault => "Value error, " ++ fault.message

end DataFaultKind

/-- Data that has been read, or why not. -/
abbrev Validated (α : Type) : Type := Except Rejection α

namespace Validated

/-- A single fault at the place that is being read. -/
def fault {α : Type} (kind : DataFaultKind) : Validated α := .error (.faults [⟨[], kind⟩])

/-- Both results, or the faults of both.  An unknown home directory ends it. -/
def both {α β : Type} (a : Validated α) (b : Validated β) : Validated (α × β) :=
  match a, b with
  | .ok x, .ok y => .ok (x, y)
  | .error .unknownHome, _ => .error .unknownHome
  | _, .error .unknownHome => .error .unknownHome
  | .error (.faults fs), .ok _ => .error (.faults fs)
  | .ok _, .error (.faults gs) => .error (.faults gs)
  | .error (.faults fs), .error (.faults gs) => .error (.faults (fs ++ gs))

/-- Puts the faults one step further in. -/
def within {α : Type} (step : DataStep) : Validated α → Validated α
  | .error (.faults fs) => .error (.faults (fs.map fun f => { f with place := step :: f.place }))
  | other => other

end Validated

/-! ## Scalars -/

/-- A text, or octets that are characters. -/
def readText : Value → Validated String
  | .text s => .ok s
  | .octets bs =>
      match Text.decode bs with
      | .ok cs => .ok (String.ofList cs)
      | .error _ => .fault .notCharacters
  | _ => .fault .notText

/-- The words for truth values, in lower case. -/
def truthOfWord (word : String) : Validated Bool :=
  let word := String.ofList (word.toList.map Char.toLower)
  if ["1", "t", "y", "on", "yes", "true"].contains word then .ok true
  else if ["0", "f", "n", "no", "off", "false"].contains word then .ok false
  else .fault .badTruth

/-- Zero or one.  Any other number is refused, one beyond 64 bits as no truth value at all. -/
def truthOfInt (n : Int) : Validated Bool :=
  if n = 0 then .ok false
  else if n = 1 then .ok true
  else if -0x8000000000000000 ≤ n ∧ n < 0x8000000000000000 then .fault .badTruth
  else .fault .notTruth

/-- A truth value, or what reads as one.  A double must lie strictly inside of what 64 bits hold. -/
def readTruth : Value → Validated Bool
  | .bool b => .ok b
  | .int n => truthOfInt n
  | .float x =>
      match x.toInt? with
      | some n => if n = -0x8000000000000000 then .fault .notTruth else truthOfInt n
      | none => .fault .notTruth
  | .text s => truthOfWord s
  | .octets bs =>
      match Text.decode bs with
      | .ok cs => truthOfWord (String.ofList cs)
      | .error _ => .fault .badTruth
  | _ => .fault .notTruth

/-- The only kind of step. -/
def readKind : Value → Validated StepKind
  | .text s => if s = StepKind.shell.name then .ok .shell else .fault .notShell
  | _ => .fault .notShell

/-- A text that is more than blanks, without the blanks around it. -/
def readName (v : Value) : Validated String := do
  let s ← readText v
  if Text.isAllBlank s then .fault (.rule .blankText) else .ok (Text.trimmed s)

/-- A host path in normal form. -/
def readHostPath (home : String) (v : Value) : Validated String := do
  let s ← readText v
  let s := Text.trimmed s
  if s.isEmpty then .fault (.rule .blankHostPath)
  else
    match (Path.ofText s).expandHome home with
    | .ok p => .ok p.toText
    | .error .nulCharacter => .fault (.rule .nulCharacter)
    | .error .unknownHome => .error .unknownHome

/-- An absolute path in the machine, as it is written. -/
def readGuestPath (v : Value) : Validated String := do
  let s ← readText v
  if s.startsWith "/" then .ok s else .fault (.rule (.relativeGuestPath s))

/-! ## Records and lists -/

/-- The fields of a record. -/
def readRecord (type : String) : Value → Validated (List (Value × Value))
  | .map _ entries => .ok entries
  | _ => .fault (.notRecord type)

/-- A field that must be there. -/
def required {α : Type} (name : String) (read : Value → Validated α)
    (fields : List (Value × Value)) : Validated α :=
  .within (.field name) <|
    match Value.lookup? (.text name) fields with
    | some v => read v
    | none => .fault .missing

/-- A field that may be left out. -/
def optional {α : Type} (name : String) (standard : α) (read : Value → Validated α)
    (fields : List (Value × Value)) : Validated α :=
  match Value.lookup? (.text name) fields with
  | some v => .within (.field name) (read v)
  | none => .ok standard

/-- Reads the items of a list from an index on. -/
def readItemsFrom {α : Type} (read : Value → Validated α) : Nat → List Value → Validated (List α)
  | _, [] => .ok []
  | index, v :: rest =>
      (Validated.both (.within (.item index) (read v)) (readItemsFrom read (index + 1) rest)).map
        fun (x, xs) => x :: xs

/-- A list, or what can be taken for one: a pair or a set. -/
def readList {α : Type} (read : Value → Validated α) : Value → Validated (List α)
  | .list _ items => readItemsFrom read 0 items
  | .pair _ a b => readItemsFrom read 0 [a, b]
  | .set _ elements => readItemsFrom read 0 elements
  | _ => .fault .notList

/-! ## Profiles -/

/-- Reads a provisioning step. -/
def Step.ofValue (v : Value) : Validated Step := do
  let fields ← readRecord "ProvisionStep" v
  let (name, kind, path, privileged) ←
    .both (required "name" readName fields) <|
    .both (optional "kind" StepKind.shell readKind fields) <|
    .both (required "path" readName fields) (optional "privileged" false readTruth fields)
  .ok { name, kind, path, privileged }

/-- Reads a shared folder. -/
def SharedFolder.ofValue (home : String) (v : Value) : Validated SharedFolder := do
  let fields ← readRecord "SharedFolder" v
  let (hostPath, guestPath) ←
    .both (required "host_path" (readHostPath home) fields)
      (required "guest_path" readGuestPath fields)
  .ok { hostPath, guestPath }

/-- The names that occur more than once, each once, in increasing order. -/
def duplicates (names : List String) : List String :=
  (names.filter fun n => 1 < names.count n).eraseDups.mergeSort fun a b => !(b < a)

/-- Reads the steps of a profile; their names must differ. -/
def readSteps (v : Value) : Validated (List Step) := do
  let steps ← readList Step.ofValue v
  match duplicates (steps.map (·.name)) with
  | [] => .ok steps
  | names => .fault (.rule (.duplicateSteps names))

/-- Reads a profile. -/
def Profile.ofValue (home : String) (v : Value) : Validated Profile := do
  let fields ← readRecord "VMProfile" v
  let (name, box, steps, folders) ←
    .both (required "name" readName fields) <|
    .both (required "box" readName fields) <|
    .both (optional "provisioners" [] readSteps fields)
      (optional "synced_folders" [] (readList (SharedFolder.ofValue home)) fields)
  .ok { name, box, steps, folders }

/-- Reads profiles; their names must differ. -/
def readProfiles (home : String) (v : Value) : Validated (List Profile) := do
  let profiles ← readList (Profile.ofValue home) v
  let names := profiles.map (·.name)
  if names.Nodup then .ok profiles else .fault (.rule (.duplicateProfiles names))

/-- Reads a set of profiles. -/
def ProfileSet.ofValue (home : String) (v : Value) : Validated ProfileSet := do
  let fields ← readRecord "ProfileSet" v
  let profiles ← optional "profiles" [] (readProfiles home) fields
  .ok { profiles }

end DevMachines
