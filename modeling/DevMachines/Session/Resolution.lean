import DevMachines.Session.Reporting
import DevMachines.Settings.Location
import DevMachines.Settings.Merged

/-!
# Resolving settings

Resolving reads the defaults, which must be there, and then the user's own settings, which may be
absent.  Only when both have been read is anything said about expected keys, so a failure leaves no
notice behind.
-/

namespace DevMachines.Session

open Settings (Document Entries MergedSettings)

/-- Reports several events in order. -/
def emitAll : List Log.Event → Activity Unit
  | [] => pure ()
  | e :: rest => do
      emit e
      emitAll rest

/-- Waits for an interruption that is coming. -/
def takeInterruption : Activity Unit := do
  let s ← get
  if s.interruptPending then
    set { s with interruptPending := false }
    throw .interrupted

/-- Loads a document under a number.  One that is not required may be absent. -/
def loadDocument (number : Nat) (path : Path) (isRequired : Bool) : Activity (Option Document) := do
  let s ← get
  match ← orFail Failure.ofLoad (Settings.readChars s.files s.environment.workingDirectory path) with
  | none =>
      if isRequired then throw (.document (.notFound path))
      emitAll (Settings.loadEvents path none)
      pure none
  | some chars =>
      takeInterruption
      let document ← orFail Failure.ofLoad (Document.ofText number path chars)
      emitAll (Settings.loadEvents path (some document))
      pure (some document)

/-- The event of an expected key that is in no document. -/
def missingKeyEvent (key : String) (sources : List Path) : Log.Event :=
  ⟨.info, "settings_key_missing",
    [("key", .text key), ("sources", .list none (sources.map fun p => .text p.toText))]⟩

/-- What the user is told about an expected key that is in no document. -/
def missingKeyNotice (key : String) : String := key ++ " is not set in any settings file"

/-- Reports the expected keys that are missing, each as often as it is expected. -/
def reportMissing (audience : Audience) (settings : MergedSettings) : List String → Activity Unit
  | [] => pure ()
  | key :: rest => do
      if (settings.get? key).isNone then
        emit (missingKeyEvent key settings.sources)
        tell audience (missingKeyNotice key)
      reportMissing audience settings rest

/-- The settings of two documents, of which the second may be absent. -/
def mergeDocuments (defaultsPath overridesPath : Path) (defaults : Entries) :
    Option Entries → MergedSettings
  | none => { entries := defaults, sources := [defaultsPath] }
  | some overrides =>
      { entries := Settings.overlay defaults overrides, sources := [defaultsPath, overridesPath] }

/-- Resolves the settings of two documents. -/
def resolve (defaultsPath overridesPath : Path) (expected : List String) (audience : Audience) :
    Activity MergedSettings := do
  let defaults ← loadDocument 0 defaultsPath true
  let overrides ← loadDocument 1 overridesPath false
  let settings := mergeDocuments defaultsPath overridesPath
    (defaults.elim [] (·.entries)) (overrides.map (·.entries))
  reportMissing audience settings expected
  pure settings

/-! ## Project settings -/

/-- Looks for the project root. -/
def projectRoot (given : Option Path) : Activity Path := do
  let s ← get
  emitAll (Settings.projectRootEvents s.environment given)
  orFail .home (Settings.projectRoot s.environment given)

/-- The path of the shipped defaults. -/
def defaultsPath (given : Option Path) : Activity Path := do
  pure ((← projectRoot given).child Settings.defaultsName)

/-- The path of the user's own settings. -/
def overridesPath (given : Option Path) : Activity Path := do
  pure ((← projectRoot given).child Settings.overridesName)

/-- Resolves the settings of a project. -/
def resolveProject (given : Option Path) (expected : List String) (audience : Audience) :
    Activity MergedSettings := do
  let defaults ← defaultsPath given
  let overrides ← overridesPath given
  resolve defaults overrides expected audience

end DevMachines.Session
