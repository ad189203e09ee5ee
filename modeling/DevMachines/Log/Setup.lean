import DevMachines.Environment
import DevMachines.Log.Interpolation
import DevMachines.Log.Line
import DevMachines.Text.Capital

/-!
# Where records go

A setup is a threshold, the form of the lines on standard error, and perhaps a file that gets every
record as JSON.  The context is a set of fields that every record carries; the record's own fields
win over it.

`recordOf` is the one way from an event to a record.  It is taken for every event, also for those
below the threshold, so an event whose arguments do not fit fails at every threshold alike.
-/

namespace DevMachines.Log

/-- Where records go. -/
structure Sinks where
  form : LineForm
  /-- The absolute path of a file that gets every record as JSON. -/
  file : Option Path
  deriving DecidableEq, Repr

/-- The state of the reporting. -/
structure Setup where
  /-- The least rank that is written. -/
  threshold : Nat := Severity.warning.rank
  /-- Where records go, once that has been decided. -/
  sinks : Option Sinks := none
  context : Fields := []
  deriving Repr, Inhabited

namespace Setup

/-- The number of destinations. -/
def sinkCount (s : Setup) : Nat :=
  match s.sinks with
  | none => 0
  | some sinks => if sinks.file.isSome then 2 else 1

end Setup

/-! ## Thresholds -/

/-- Why a text is no threshold. -/
inductive LevelFault where
  | noSuchName (name : String)
  /-- A name that stands for a text, which is no threshold. -/
  | standsForText
  /-- A name that stands for a table, which is no threshold. -/
  | standsForTable
  deriving DecidableEq, Repr

namespace LevelFault

/-- The class of a fault, as reports name it. -/
def kindName : LevelFault → String
  | .noSuchName _ => "AttributeError"
  | .standsForText => "ValueError"
  | .standsForTable => "TypeError"

/-- The wording of a fault. -/
def message : LevelFault → String
  | .noSuchName name => s!"module 'logging' has no attribute '{name}'"
  | .standsForText => "Unknown level: '%(levelname)s:%(name)s:%(message)s'"
  | .standsForTable =>
      "Level not an integer or a valid string: \x7b'%': (<class 'logging.PercentStyle'>, " ++
        "'%(levelname)s:%(name)s:%(message)s'), '\x7b': (<class 'logging.StrFormatStyle'>, " ++
        "'\x7blevelname\x7d:\x7bname\x7d:\x7bmessage\x7d'), '$': " ++
        "(<class 'logging.StringTemplateStyle'>, " ++
        "'$\x7blevelname\x7d:$\x7bname\x7d:$\x7bmessage\x7d')\x7d"

/-- Is the name known, so that the fault comes up only after the destinations have changed? -/
def isLate : LevelFault → Bool
  | .noSuchName _ => false
  | _ => true

end LevelFault

/-- The rank that a name in any case stands for. -/
def rankOfName (text : String) : Except LevelFault Nat :=
  match Text.capitals text with
  | "CRITICAL" | "FATAL" => .ok 50
  | "ERROR" => .ok 40
  | "WARNING" | "WARN" => .ok 30
  | "INFO" => .ok 20
  | "DEBUG" => .ok 10
  | "NOTSET" => .ok 0
  | "BASIC_FORMAT" => .error .standsForText
  | "_STYLES" => .error .standsForTable
  | name => .error (.noSuchName name)

/-! ## Records -/

/-- Octets are written as the characters that they are. -/
def decodeOctets : Value → Value
  | .octets bs => .text (String.ofList (Text.decodeReplacing (bs.length + 1) bs))
  | v => v

/-- The record of an event: the context, the event's fields, its name with the arguments filled in,
its severity and the time. -/
def recordOf (context : Fields) (time : String) (e : Event) (args : List Value) :
    Except InterpolationFault Fields := do
  let name ← interpolate e.name args
  let fields := context.setAll (e.fields.set "event" (.text name))
  let fields := (fields.set "level" (.text e.severity.name)).set "timestamp" (.text time)
  pure ((fields.filter (·.1 != "stack_info")).map fun (n, v) => (n, decodeOctets v))

/-- The event as a caller that listens sees it: without context and time. -/
def heard (e : Event) (args : List Value) : Except InterpolationFault Event := do
  pure { e with name := ← interpolate e.name args }

end DevMachines.Log
