import DevMachines.Value
import DevMachines.Text.Quoted

/-!
# How values are shown

`Value.display` shows a value so that its kind can be told: texts and octets in quotes, lists in
brackets, maps and sets in braces, days and moments as the calls that make them.  `Value.plain` is
the same, except that a text stands for itself and a day or moment has its ISO form; it is what a
value looks like inside a sentence.  A collection inside itself is shown by three dots.
-/

namespace DevMachines

/-- The call that makes a day. -/
def Date.display (d : Date) : String := s!"datetime.date({d.year}, {d.month}, {d.day})"

/-- The call that makes an offset from universal time. -/
def offsetDisplay (seconds : Int) : String :=
  if seconds = 0 then "datetime.timezone.utc" else s!"datetime.timezone({durationText seconds})"

/-- The call that makes a moment; trailing zeros of the time are left out. -/
def Moment.display (m : Moment) : String :=
  let seconds :=
    if m.microsecond ≠ 0 then s!", {m.second}, {m.microsecond}"
    else if m.second ≠ 0 then s!", {m.second}" else ""
  let zone := match m.offset with
    | some s => s!", tzinfo={offsetDisplay s}"
    | none => ""
  s!"datetime.datetime({m.date.year}, {m.date.month}, {m.date.day}, {m.hour}, {m.minute}" ++
    s!"{seconds}{zone})"

namespace Value

mutual

/-- Shows a value so that its kind can be told. -/
def display : Value → String
  | .null => "None"
  | .bool b => if b then "True" else "False"
  | .int n => intText n
  | .float x => x.toText
  | .text s => Text.quoted s
  | .octets bs => Text.quotedOctets bs
  | .date _ d => d.display
  | .moment _ m => m.display
  | .list _ items => "[" ++ ", ".intercalate (displayItems items) ++ "]"
  | .pair _ a b => "(" ++ display a ++ ", " ++ display b ++ ")"
  | .set _ [] => "set()"
  | .set _ elements => "\x7b" ++ ", ".intercalate (displayItems elements) ++ "\x7d"
  | .map _ entries => "\x7b" ++ ", ".intercalate (displayEntries entries) ++ "\x7d"
  | .again _ => "..."

/-- Shows each item. -/
def displayItems : List Value → List String
  | [] => []
  | v :: rest => display v :: displayItems rest

/-- Shows each entry, key before value. -/
def displayEntries : List (Value × Value) → List String
  | [] => []
  | (k, v) :: rest => (display k ++ ": " ++ display v) :: displayEntries rest

end

/-- The form of a value inside a sentence. -/
def plain : Value → String
  | .text s => s
  | .date _ d => d.isoText
  | .moment _ m => m.isoText " "
  | v => v.display

end Value
end DevMachines
