import DevMachines.Files.Tree
import DevMachines.Log.Event
import DevMachines.Value.Display
import DevMachines.Yaml.Document

/-!
# Settings documents

A settings document is a file with a YAML mapping whose keys are texts.  An empty file is an empty
document.  `Document.ofText` says what a text holds, or which of the causes in `DocumentFault` keeps
it from being a settings document.

A YAML text can also name a value that does not exist, such as the 30th of February, or have a key
that is no text and too long to be reported.  That is not a fault of the document but of a value in
it, so it is a `ValueFault` and is kept apart.
-/

namespace DevMachines.Settings

/-- The entries of a settings document, in order; each key once. -/
abbrev Entries := List (String × Value)

/-- A settings document: its entries, and the label of the mapping that holds them.  Without a label
the file was empty. -/
structure Document where
  label : Option Label
  entries : Entries
  deriving Repr

/-- Why a file could not be read as YAML. -/
inductive ReadCause where
  | file (fault : FileFault)
  | octets (fault : Text.DecodeFault)
  | yaml
  deriving DecidableEq, Repr

/-- Why there is no settings document. -/
inductive DocumentFault where
  | notFound (path : Path)
  | unreadable (path : Path) (cause : ReadCause)
  | notMapping (path : Path) (kind : String)
  | badKeys (path : Path) (keys : List String)
  deriving DecidableEq, Repr

namespace DocumentFault

/-- The path of the document. -/
def path : DocumentFault → Path
  | .notFound p | .unreadable p _ | .notMapping p _ | .badKeys p _ => p

/-- The class of a fault, as reports name it. -/
def kindName : DocumentFault → String
  | .notFound _ => "SettingsNotFoundError"
  | _ => "SettingsParseError"

end DocumentFault

/-- The report of a failed operation on a file. -/
def fileReport (fault : FileFault) (path : String) : String :=
  let (number, text) := fault.describe
  s!"[Errno {number}] {text}: " ++ Text.quoted path

/-- The wording of a cause. -/
def ReadCause.message (path : Path) : ReadCause → String
  | .file fault => fileReport fault path.toText
  | .octets fault => fault.message
  | .yaml => Yaml.ValueFault.message .malformed

/-- The wording of a fault; it names the document. -/
def DocumentFault.message : DocumentFault → String
  | .notFound p => s!"Settings file not found: {p.toText}"
  | .unreadable p cause => s!"Failed to read settings file {p.toText}: {cause.message p}"
  | .notMapping p kind => s!"Settings file {p.toText} must be a YAML mapping, got {kind}"
  | .badKeys p keys =>
      s!"Settings file {p.toText} has non-string keys: " ++ ", ".intercalate keys

/-- Why loading failed: there is no such document, a value in it does not exist or cannot be reported,
or its path cannot even be asked for. -/
inductive LoadFault where
  | document (fault : DocumentFault)
  | value (fault : Yaml.ValueFault)
  | path (fault : FileFault) (path : Path)
  deriving DecidableEq, Repr

/-- The keys that are no texts. -/
def badKeys (entries : List (Value × Value)) : List Value :=
  (entries.map (·.1)).filter fun key => match key with
    | .text _ => false
    | _ => true

/-- The entries whose keys are texts. -/
def textEntries (entries : List (Value × Value)) : Entries :=
  entries.filterMap fun (key, value) => match key with
    | .text s => some (s, value)
    | _ => none

/-- The document that a value is.  Null is the empty document. -/
def Document.ofValue (path : Path) : Value → Except LoadFault Document
  | .null => .ok { label := none, entries := [] }
  | .map label entries =>
      match badKeys entries with
      | [] => .ok { label, entries := textEntries entries }
      | bad =>
          if bad.any Value.holdsLongInt then .error (.value .tooLong)
          else .error (.document (.badKeys path (bad.map Value.display)))
  | v => .error (.document (.notMapping path v.kindName))

/-- The characters of a file, if there is something under the path. -/
def readChars (files : FileTree) (here path : Path) : Except LoadFault (Option (List Char)) :=
  match files.contains here path with
  | .error fault => .error (.path fault path)
  | .ok false => .ok none
  | .ok true =>
      match files.read here path with
      | .error fault => .error (.document (.unreadable path (.file fault)))
      | .ok octets =>
          match Text.decode octets with
          | .error fault => .error (.document (.unreadable path (.octets fault)))
          | .ok chars => .ok (some (Text.unifyLineEnds chars))

/-- The document that a text is.  The number tells the objects of this document from those of
others. -/
def Document.ofText (number : Nat) (path : Path) (chars : List Char) : Except LoadFault Document :=
  match Yaml.readValue number chars with
  | .error .malformed => .error (.document (.unreadable path .yaml))
  | .error fault => .error (.value fault)
  | .ok value => Document.ofValue path value

/-- The event of loading a document, if it is worth one: an optional document is absent, or a
mapping has been read. -/
def loadEvents (path : Path) : Option Document → List Log.Event
  | none => [⟨.debug, "settings_override_absent", [("path", .text path.toText)]⟩]
  | some { label := some _, entries } =>
      [⟨.debug, "settings_loaded",
        [("path", .text path.toText), ("keys", .int entries.length)]⟩]
  | some { label := none, .. } => []

end DevMachines.Settings
