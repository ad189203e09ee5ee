import DevMachines.Value

/-!
# Events

What the program reports about itself: a severity, the name of what happened, and fields with the
particulars.  How and whether an event is written is not its own affair; see `Log.Setup`.
-/

namespace DevMachines.Log

/-- How serious an event is. -/
inductive Severity where
  | debug
  | info
  | warning
  | error
  | critical
  deriving DecidableEq, Repr, Inhabited

namespace Severity

/-- The name of a severity, as it is written. -/
def name : Severity → String
  | .debug => "debug"
  | .info => "info"
  | .warning => "warning"
  | .error => "error"
  | .critical => "critical"

/-- The rank of a severity; a threshold is a rank, too. -/
def rank : Severity → Nat
  | .debug => 10
  | .info => 20
  | .warning => 30
  | .error => 40
  | .critical => 50

end Severity

/-- The fields of an event, each name once. -/
abbrev Fields := List (String × Value)

namespace Fields

/-- Sets a field; one that is there keeps its place. -/
def set (name : String) (value : Value) : Fields → Fields
  | [] => [(name, value)]
  | (n, v) :: rest => if n = name then (n, value) :: rest else (n, v) :: set name value rest

/-- Sets several fields one after another. -/
def setAll (fields more : Fields) : Fields := more.foldl (fun acc (n, v) => acc.set n v) fields

end Fields

/-- Something that happened. -/
structure Event where
  severity : Severity
  name : String
  fields : Fields := []
  deriving Repr, Inhabited

end DevMachines.Log
