import DevMachines.Proofs.Session.Keeping

/-!
# What an operation is

An operation puts two events around an activity.  It reads the clock and reports that it begins; the
activity goes on from there; and how that ends decides what is reported afterwards, after the clock
has been read again.  An interruption is not reported.

Main statement: `perform_operationOn`, which says all of this at once.  Whoever needs one ending of
an operation puts that ending in.

## Why the clock is only said to exist

The readings that are left do not matter for what happens, and how many there are depends on how
often the activity itself looks.  So the statements here say that there is a clock, and that there
is a time between its readings.
-/

namespace DevMachines.Session

open Activity

theorem perform_readClock (s : Session) :
    ∃ reading clock, readClock.perform s = (.ok reading, { s with clock }) := by
  rw [readClock, perform_bind_ok (perform_get s)]
  split
  · exact ⟨_, s.clock, rfl⟩
  · exact ⟨_, s.clock, rfl⟩
  · exact ⟨_, _, rfl⟩

/-- Closing an operation reads the clock and reports how the operation ended. -/
theorem perform_closeOperation (name : String) (fields : Log.Fields) (start : Binary64)
    (failure : Option Failure) (s : Session) :
    ∃ clock elapsed, (closeOperation name fields start failure).perform s =
      (.ok (), ({ s with clock } : Session).noted (closingEvent name fields elapsed failure)) := by
  obtain ⟨stop, clock, hstop⟩ := perform_readClock s
  refine ⟨clock, milliseconds start stop, ?_⟩
  rw [closeOperation, perform_bind_ok hstop, perform_emit]

/-- What an operation reports when its activity has ended, unless that was an interruption. -/
def lastEvent {α : Type} (name : String) (fields : Log.Fields) (elapsed : Binary64) :
    Except Failure α → Option Log.Event
  | .ok _ => some (closingEvent name fields elapsed none)
  | .error failure =>
      if failure.isInterruption then none
      else some (closingEvent name fields elapsed (some failure))

/-- The first field of a description whose name is taken. -/
def takenField (context : Log.Fields) : Option (String × Value) :=
  context.find? fun (n, _) => operationNames.contains n

variable {α : Type} {context : Log.Fields}

/-- An operation whose description gives a name that is taken does not begin. -/
theorem perform_operationOn_refused {n : String} {v : Value}
    (hnames : takenField context = some (n, v))
    (logger : Log.Fields) (name : String) (body : Log.Fields → Activity α) (s : Session) :
    (operationOn logger name context body).perform s = (.error (.givenTwice n), s) := by
  rw [operationOn, ← takenField, hnames]
  rfl

/-- **An operation reports its beginning before the activity and its end after it**, and what comes
out of the activity comes out of the operation. -/
theorem perform_operationOn (hnames : takenField context = none) (logger : Log.Fields)
    (name : String) (body : Log.Fields → Activity α) (s : Session) :
    let fields := Log.Fields.setAll (logger.set "operation" (.text name)) context
    ∃ clock, ∀ result t,
      (body fields).perform (({ s with clock } : Session).noted (openingEvent name fields)) =
        (result, t) →
      ∃ clock elapsed, (operationOn logger name context body).perform s =
        (result,
          ({ t with clock } : Session).notedAll (lastEvent name fields elapsed result).toList) := by
  intro fields
  obtain ⟨start, clock, hstart⟩ := perform_readClock s
  refine ⟨clock, fun result t hbody => ?_⟩
  have hattempt := perform_attempt (body fields)
    (({ s with clock } : Session).noted (openingEvent name fields))
  rw [hbody] at hattempt
  rw [operationOn, ← takenField, hnames]
  dsimp only
  rw [perform_bind_ok hstart, perform_bind_ok (perform_emit _ _), ← openingEvent,
    perform_bind_ok hattempt]
  cases result with
  | ok x =>
    obtain ⟨clock', elapsed, hclose⟩ := perform_closeOperation name fields start none t
    exact ⟨clock', elapsed, perform_bind_ok hclose _⟩
  | error failure =>
    rcases hkind : failure.isInterruption with _ | _
    · obtain ⟨clock', elapsed, hclose⟩ := perform_closeOperation name fields start (some failure) t
      refine ⟨clock', elapsed, ?_⟩
      rw [lastEvent, hkind]
      dsimp only
      rw [hkind, Bool.not_false, if_pos rfl, perform_bind_ok hclose, perform_throw]
      rfl
    · refine ⟨t.clock, start, ?_⟩
      rw [lastEvent, hkind]
      dsimp only
      rw [hkind, Bool.not_true, if_neg Bool.false_ne_true, if_pos rfl]
      rfl

end DevMachines.Session
