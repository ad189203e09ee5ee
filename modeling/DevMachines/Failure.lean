import DevMachines.Log.Setup
import DevMachines.Profile.Validation
import DevMachines.Settings.Document

/-!
# What can end a run early

Every way in which an activity of the program can fail to produce its result, as one type.  Failures
of the settings and of files are reported to the user; the others are handed to whoever runs the
program.  An interruption is no failure of anything, and the log says nothing about it.
-/

namespace DevMachines

/-- Why an activity did not produce its result. -/
inductive Failure where
  | home (fault : HomeFault)
  | document (fault : Settings.DocumentFault)
  | value (fault : Yaml.ValueFault)
  | file (fault : FileFault) (path : String)
  | nulInPath
  | data (type : String) (faults : List DataFault)
  | json (fault : JsonFault)
  | level (fault : Log.LevelFault)
  | interpolation (fault : Log.InterpolationFault)
  /-- A name is given twice to the log of an operation. -/
  | givenTwice (name : String)
  /-- A closing tag in a text for the console that closes nothing. -/
  | markup (message : String)
  /-- A failure from outside, with its class and wording. -/
  | outside (kind message : String)
  | interrupted
  deriving DecidableEq, Repr

namespace Failure

/-- The class of a failure, as reports name it. -/
def kindName : Failure → String
  | .home .unknownHome => "RuntimeError"
  | .home .nulCharacter => "ValueError"
  | .document fault => fault.kindName
  | .value fault => fault.kindName
  | .file fault _ => fault.kindName
  | .nulInPath => "ValueError"
  | .data .. => "ValidationError"
  | .json (.badKey _) => "TypeError"
  | .json .circular => "ValueError"
  | .json .tooManyDigits => "ValueError"
  | .level fault => fault.kindName
  | .interpolation fault => fault.kindName
  | .givenTwice _ => "TypeError"
  | .markup _ => "MarkupError"
  | .outside kind _ => kind
  | .interrupted => "KeyboardInterrupt"

/-- The wording of a failure. -/
def message : Failure → String
  | .home .unknownHome => "Could not determine home directory."
  | .home .nulCharacter => "embedded null byte"
  | .document fault => fault.message
  | .value fault => fault.message
  | .file fault path => Settings.fileReport fault path
  | .nulInPath => "embedded null byte"
  | .data type faults => s!"{faults.length} validation errors for {type}"
  | .json fault => fault.message
  | .level fault => fault.message
  | .interpolation fault => fault.message
  | .givenTwice name => s!"log_operation() got multiple values for argument '{name}'"
  | .markup message => message
  | .outside _ message => message
  | .interrupted => ""

/-- The classes of what comes from outside to end a run, not to report that something failed. -/
def endingKinds : List String :=
  ["BaseException", "BaseExceptionGroup", "CancelledError", "GeneratorExit", "KeyboardInterrupt",
    "SystemExit"]

/-- Is it an interruption rather than a failure? -/
def isInterruption : Failure → Bool
  | .interrupted => true
  | .outside kind _ => endingKinds.contains kind
  | _ => false

/-- The failure that a fault of loading is. -/
def ofLoad : Settings.LoadFault → Failure
  | .document fault => .document fault
  | .value fault => .value fault
  | .path fault path => .file fault path.toText

/-- The failure that a rejection of data is. -/
def ofRejection (type : String) : Rejection → Failure
  | .faults list => .data type list
  | .unknownHome => .home .unknownHome

end Failure
end DevMachines
