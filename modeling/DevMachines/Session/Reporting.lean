import DevMachines.Session

/-!
# Reporting events

`emit` reports an event.  It becomes a record under every setup, also when its severity is below the
threshold, so whether its arguments fit does not depend on the setup.  A record at the threshold or
above is written once on standard error, and once more as JSON to the file of the setup if there is
one; any other record is written nowhere.

`operation` puts brackets around an activity: one event before it, and one after it that says how it
ended and how long it took.  The activity's own failure is handed on unchanged.  An interruption is
not a way to end, so it closes no bracket.
-/

namespace DevMachines.Session

open Log (Event Fields Severity)

/-! ## Writing records -/

/-- Writes a record on standard error. -/
def writeOnErrors (form : Log.LineForm) (record : Fields) (s : Session) : Session :=
  match Log.line form record with
  | .ok line => { s with errors := s.errors ++ (line ++ "\n") }
  | .error _ => s

/-- Adds a record to a file. -/
def writeToFile (file : Path) (record : Fields) (s : Session) : Session :=
  match Log.line .json record with
  | .ok line =>
      match s.files.append s.environment.workingDirectory file (Text.encode (line ++ "\n")) with
      | .ok files => { s with files }
      | .error _ => s
  | .error _ => s

/-- Writes a record wherever it goes. -/
def deliver (rank : Nat) (record : Fields) (s : Session) : Session :=
  if rank < s.reporting.threshold then s
  else
    match s.reporting.sinks with
    | none => s
    | some sinks =>
        let s := writeOnErrors sinks.form record s
        match sinks.file with
        | some file => writeToFile file record s
        | none => s

/-! ## Events -/

/-- Reports an event; arguments are filled into its name. -/
def emitWith (args : List Value) (e : Event) : Activity Unit := do
  let s ← get
  if s.listening then
    let e ← orFail .interpolation (Log.heard e args)
    set { s with heard := s.heard ++ [e] }
  else
    let record ← orFail .interpolation (Log.recordOf s.reporting.context s.time e args)
    set (deliver e.severity.rank record s)

/-- Reports an event. -/
def emit (e : Event) : Activity Unit := emitWith [] e

/-- Reports an event of another library.  Below the threshold it is not looked at; before a setup
its bare text is printed; and if its arguments do not fit, nothing is. -/
def emitForeign (args : List Value) (e : Event) : Activity Unit := modify fun s =>
  if s.listening || e.severity.rank < s.reporting.threshold then s
  else
    match Log.recordOf s.reporting.context s.time e args with
    | .error _ => s
    | .ok record =>
        match s.reporting.sinks, record.lookup "event" with
        | none, some (.text text) => { s with errors := s.errors ++ (text ++ "\n") }
        | _, _ => deliver e.severity.rank record s

/-! ## The setup -/

/-- Makes sure that a file can be added to. -/
def openLogFile (file : Path) : Activity Path := do
  if file.hasNul then throw .nulInPath
  let s ← get
  let file := Path.absolute s.environment.workingDirectory file
  let files ← orFail (.file · file.toText) (s.files.append s.environment.workingDirectory file [])
  set { s with files }
  pure file

/-- Changes where records go. -/
def setSinks (json : Bool) (file : Option Path) : Activity Unit := modify fun s =>
  let form := if json then .json else .readable s.environment.colours
  { s with reporting := { s.reporting with sinks := some { form, file } } }

/-- Sets the logging up: a threshold by its name, the form of the lines on standard error, and
perhaps a file. -/
def configure (level : String) (json : Bool) (file : Option Path) : Activity Unit := do
  let file ← file.mapM openLogFile
  match Log.rankOfName level with
  | .ok threshold => do
      setSinks json file
      modify fun s => { s with reporting := { s.reporting with threshold } }
  | .error fault => do
      if fault.isLate then setSinks json file
      throw (.level fault)

/-- What every record of a command carries: the command and the project root, and nothing of an
earlier command. -/
def bindContext (command : Option String) (root : String) : Activity Unit := modify fun s =>
  let command := match command with
    | some name => if name.isEmpty then "help" else name
    | none => "help"
  { s with reporting :=
      { s.reporting with context := [("command", .text command), ("root", .text root)] } }

/-! ## Operations -/

/-- The time between two readings of the clock in milliseconds, to two places. -/
def milliseconds (start stop : Binary64) : Binary64 :=
  Binary64.roundPlaces 2 (Binary64.mul (stop.sub start) (Binary64.ofDecimal false 1000 0))

/-- The names that the description of an operation cannot give to a field. -/
def operationNames : List String := ["logger", "operation"]

/-- The event that closes an operation. -/
def closingEvent (name : String) (fields : Fields) (elapsed : Binary64) : Option Failure → Event
  | none => ⟨.info, name ++ ".completed", fields.setAll [("duration_ms", .float elapsed)]⟩
  | some failure => ⟨.error, name ++ ".failed", fields.setAll
      [("error", .text failure.message), ("error_type", .text failure.kindName),
        ("duration_ms", .float elapsed)]⟩

/-- Closes an operation that began at `start`. -/
def closeOperation (name : String) (fields : Fields) (start : Binary64) (failure : Option Failure) :
    Activity Unit := do
  let stop ← readClock
  emit (closingEvent name fields (milliseconds start stop) failure)

/-- Does an activity as an operation for a logger that carries fields already.  The activity gets the
fields that the events of the operation carry, which are those of the logger that it may use. -/
def operationOn {α : Type} (logger : Fields) (name : String) (context : Fields)
    (body : Fields → Activity α) : Activity α := do
  match context.find? fun (n, _) => operationNames.contains n with
  | some (n, _) => throw (.givenTwice n)
  | none =>
      let fields := Fields.setAll (logger.set "operation" (.text name)) context
      let start ← readClock
      emit ⟨.info, name ++ ".started", fields⟩
      match ← attempt (body fields) with
      | .ok result => do
          closeOperation name fields start none
          pure result
      | .error failure => do
          if !failure.isInterruption then closeOperation name fields start (some failure)
          throw failure

/-- Does an activity as an operation for a logger that carries nothing. -/
def operation {α : Type} (name : String) (context : Fields) (body : Fields → Activity α) :
    Activity α :=
  operationOn [] name context body

end DevMachines.Session
