import DevMachines.Number.Notation

/-!
# Days and moments

A settings document may hold a day or a moment.  A moment is a day with a time of day to the
microsecond and, when it names one, an offset from universal time; a moment with an offset is a
point in time, one without is only a reading of a clock, and the two are never equal.

`Date.check` and `Moment.check` refuse what the calendar does not have, with the cause.
-/

namespace DevMachines

/-- A day of the calendar. -/
structure Date where
  year : Nat
  month : Nat
  day : Nat
  deriving DecidableEq, Repr, Inhabited

/-- A day with a time of day; the offset is in seconds east of universal time. -/
structure Moment where
  date : Date
  hour : Nat
  minute : Nat
  second : Nat
  microsecond : Nat
  offset : Option Int
  deriving DecidableEq, Repr, Inhabited

/-- Why a day or a moment does not exist. -/
inductive CalendarFault where
  | year (n : Nat)
  | month
  | day
  | hour
  | minute
  | second
  | offset (seconds : Int)
  deriving DecidableEq, Repr

/-- Every fourth year, but of the centuries only every fourth. -/
def isLeapYear (year : Nat) : Bool :=
  year % 4 == 0 && (year % 100 != 0 || year % 400 == 0)

/-- The number of days of a month. -/
def daysInMonth (year month : Nat) : Nat :=
  if month = 2 then (if isLeapYear year then 29 else 28)
  else if month = 4 ∨ month = 6 ∨ month = 9 ∨ month = 11 then 30
  else 31

/-- The number of days before the first of January of a year, counted from year one. -/
def daysBeforeYear (year : Nat) : Nat :=
  let y := year - 1
  y * 365 + y / 4 - y / 100 + y / 400

namespace Date

/-- The day itself, if the calendar has it. -/
def check (d : Date) : Except CalendarFault Date :=
  if d.year < 1 ∨ 9999 < d.year then .error (.year d.year)
  else if d.month < 1 ∨ 12 < d.month then .error .month
  else if d.day < 1 ∨ daysInMonth d.year d.month < d.day then .error .day
  else .ok d

/-- The number of the day, counted from the first day of year one. -/
def dayNumber (d : Date) : Nat :=
  daysBeforeYear d.year +
    (List.range (d.month - 1)).foldl (fun days m => days + daysInMonth d.year (m + 1)) 0 + d.day

/-- Year, month and day with hyphens between them. -/
def isoText (d : Date) : String :=
  s!"{zeroPadded 4 d.year}-{zeroPadded 2 d.month}-{zeroPadded 2 d.day}"

end Date

/-- The longest offset from universal time is below one day. -/
def secondsPerDay : Nat := 86400

namespace Moment

/-- The moment itself, if the calendar and the clock have it. -/
def check (m : Moment) : Except CalendarFault Moment := do
  match m.offset with
  | some s => if secondsPerDay ≤ s.natAbs then throw (.offset s)
  | none => pure ()
  let _ ← m.date.check
  if 23 < m.hour then throw .hour
  if 59 < m.minute then throw .minute
  if 59 < m.second then throw .second
  pure m

/-- The seconds of the clock reading since midnight of the first day, less the offset. -/
def instant (m : Moment) : Int :=
  (m.date.dayNumber * secondsPerDay + m.hour * 3600 + m.minute * 60 + m.second : Nat) -
    m.offset.getD 0

/-- Two moments with an offset are the same when they are the same point in time; two without are
the same when their readings are. -/
def same (a b : Moment) : Bool :=
  a.offset.isSome == b.offset.isSome && a.instant == b.instant && a.microsecond == b.microsecond

/-- The offset as hours and minutes with a sign, and seconds if there are any. -/
def offsetText (seconds : Int) : String :=
  let n := seconds.natAbs
  let sign := if seconds < 0 then "-" else "+"
  let tail := if n % 60 = 0 then "" else ":" ++ zeroPadded 2 (n % 60)
  s!"{sign}{zeroPadded 2 (n / 3600)}:{zeroPadded 2 (n / 60 % 60)}{tail}"

/-- Day and time of day with a separator between them, the fraction only if there is one. -/
def isoText (separator : String) (m : Moment) : String :=
  let fraction := if m.microsecond = 0 then "" else "." ++ zeroPadded 6 m.microsecond
  let time := s!"{zeroPadded 2 m.hour}:{zeroPadded 2 m.minute}:{zeroPadded 2 m.second}{fraction}"
  m.date.isoText ++ separator ++ time ++ (m.offset.map offsetText).getD ""

end Moment

/-- A stretch of whole seconds shown as days and remaining seconds. -/
def durationText (seconds : Int) : String :=
  let days := seconds / secondsPerDay
  let rest := seconds % secondsPerDay
  let parts :=
    (if days = 0 then [] else ["days=" ++ intText days]) ++
    (if rest = 0 then [] else ["seconds=" ++ intText rest])
  "datetime.timedelta(" ++ (if parts.isEmpty then "0" else ", ".intercalate parts) ++ ")"

/-- The wording of a calendar fault. -/
def CalendarFault.message : CalendarFault → String
  | .year n => s!"year {n} is out of range"
  | .month => "month must be in 1..12"
  | .day => "day is out of range for month"
  | .hour => "hour must be in 0..23"
  | .minute => "minute must be in 0..59"
  | .second => "second must be in 0..59"
  | .offset seconds =>
      "offset must be a timedelta strictly between -timedelta(hours=24) and " ++
        s!"timedelta(hours=24), not {durationText seconds}."

end DevMachines
