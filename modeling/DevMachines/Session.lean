import DevMachines.Failure
import DevMachines.Terminal.Markup
import DevMachines.Terminal.Wrap

/-!
# Sessions and activities

Everything that an activity of the program can see or change is in a `Session`: the surroundings, the
working directory with its files, where log records go, and what has been printed so far.  An
activity takes a session to a result or a failure, and to the session afterwards.

A failure keeps the session, because what has been printed or written before it stays printed and
written.  That is why the failure is inside of the state and not around it.

## Who hears an event

Usually an event becomes a record, which goes where the log setup says.  A session can also be
listened to: then every event is kept as it is, and nothing is written anywhere.
-/

namespace DevMachines

/-- The state of a session. -/
structure Session where
  environment : Environment
  files : FileTree := .empty
  reporting : Log.Setup := {}
  /-- Are events kept instead of written? -/
  listening : Bool := false
  /-- The events that have been kept, in order. -/
  heard : List Log.Event := []
  /-- What has been printed on standard output. -/
  output : String := ""
  /-- What has been printed on standard error. -/
  errors : String := ""
  /-- The messages that were handed to the caller, in order. -/
  notices : List String := []
  /-- The coming readings of the clock; the last one repeats. -/
  clock : List Binary64 := []
  /-- The time that records carry. -/
  time : String := ""
  /-- Will the next reading of a document be interrupted? -/
  interruptPending : Bool := false
  deriving Inhabited

/-- What happens in a session: a result or a failure, and a changed session. -/
abbrev Activity (α : Type) : Type := ExceptT Failure (StateM Session) α

/-- Does an activity, and returns the session also when it fails. -/
def Activity.perform {α : Type} (a : Activity α) (s : Session) : Except Failure α × Session :=
  (a.run).run s

namespace Session

/-- Does an activity without failing. -/
def attempt {α : Type} (a : Activity α) : Activity (Except Failure α) := ExceptT.lift a.run

/-- A result, or the failure that a fault is. -/
def orFail {ε α : Type} (failure : ε → Failure) : Except ε α → Activity α
  | .ok x => pure x
  | .error fault => throw (failure fault)

/-! ## Printing -/

/-- Prints on standard output. -/
def print (text : String) : Activity Unit := modify fun s => { s with output := s.output ++ text }

/-- Prints on standard error. -/
def printError (text : String) : Activity Unit :=
  modify fun s => { s with errors := s.errors ++ text }

/-- The failure that a fault in markup is. -/
def markupFailure (fault : Terminal.MarkupFault) : Failure := .markup fault.message

/-- Where a notice goes. -/
inductive Audience where
  | nobody
  | caller
  | output
  | errors
  deriving DecidableEq, Repr

/-- A text with markup, on lines of its own whose length is left to the terminal. -/
def unwrapped (markup : String) : Except Terminal.MarkupFault String :=
  (Terminal.render markup.toList).map Terminal.printedUnwrapped

/-- A message with a sign in front of it; the message is shown as it is. -/
def signed (colour sign message : String) : String :=
  "[" ++ colour ++ "]" ++ sign ++ String.ofList (Terminal.escape message.toList) ++ "[/]"

/-- A notice as it is printed. -/
def noticeText (message : String) : Except Terminal.MarkupFault String :=
  unwrapped (signed "yellow" "ℹ️  " message)

/-- Tells something to an audience. -/
def tell : Audience → String → Activity Unit
  | .nobody, _ => pure ()
  | .caller, message => modify fun s => { s with notices := s.notices ++ [message] }
  | .output, message => do print (← orFail markupFailure (noticeText message))
  | .errors, message => do printError (← orFail markupFailure (noticeText message))

/-! ## The clock -/

/-- Reads the clock. -/
def readClock : Activity Binary64 := do
  let s ← get
  match s.clock with
  | [] => pure Binary64.zero
  | [reading] => pure reading
  | reading :: rest => do
      set { s with clock := rest }
      pure reading

end Session
end DevMachines
