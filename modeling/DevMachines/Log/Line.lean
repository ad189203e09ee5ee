import DevMachines.Log.Event
import DevMachines.Value.Json

/-!
# How a record is written

A record is an event with everything that is known about it, as a list of fields.  It is written on
one line, either for people --- time, severity and name first, then the other fields by name --- or
as a JSON object for programs.  On a terminal with colours the parts of the first form are set apart
by colour.
-/

namespace DevMachines.Log

/-- How records are written. -/
inductive LineForm where
  | readable (colours : Bool)
  | json
  deriving DecidableEq, Repr, Inhabited

/-! ## For people -/

/-- The control sequences that set the parts of a line apart. -/
structure LineStyles where
  reset : String
  time : String
  name : String
  key : String
  value : String
  logger : String
  severity : String → String

/-- A control sequence. -/
def controlSequence (code : String) : String := "\x1b[" ++ code ++ "m"

/-- No control sequences. -/
def plainStyles : LineStyles := ⟨"", "", "", "", "", "", fun _ => ""⟩

/-- Colours that grow with severity. -/
def colouredStyles : LineStyles where
  reset := controlSequence "0"
  time := controlSequence "2"
  name := controlSequence "1"
  key := controlSequence "36"
  value := controlSequence "35"
  logger := controlSequence "1" ++ controlSequence "34"
  severity level :=
    let colour :=
      if level = "debug" ∨ level = "info" then controlSequence "32"
      else if level = "warning" then controlSequence "33"
      else controlSequence "31"
    colour ++ controlSequence "1"

/-- Fills a text with blanks up to a width. -/
def padRight (width : Nat) (text : String) : String :=
  text ++ String.ofList (List.replicate (width - text.length) ' ')

/-- A text that would be ambiguous beside other fields is quoted; other values are shown as such. -/
def fieldText : Value → String
  | .text s =>
      if s.toList.any fun c => " \t=\r\n\"'".toList.contains c then Text.quoted s else s
  | v => v.display

/-- The columns that come first, in order. -/
def leadingColumns : List String := ["timestamp", "level", "event", "logger", "logger_name"]

/-- The fields that are written below the line. -/
def trailingFields : List String := ["stack", "exception", "exc_info"]

/-- One of the columns that come first. -/
def columnText (styles : LineStyles) (column : String) (v : Value) : String :=
  if column = "timestamp" then styles.time ++ v.plain ++ styles.reset
  else if column = "level" then
    "[" ++ styles.severity v.plain ++ padRight 9 v.plain ++ styles.reset ++ "]"
  else if column = "event" then styles.name ++ padRight 30 v.plain ++ styles.reset
  else "[" ++ styles.reset ++ styles.logger ++ v.plain ++ styles.reset ++ "]" ++ styles.reset

/-- Sorts by name. -/
def sortByName {α : Type} (fields : List (String × α)) : List (String × α) :=
  fields.mergeSort fun a b => !(b.1 < a.1)

/-- A record on one line, for people. -/
def readableLine (styles : LineStyles) (fields : Fields) : String :=
  let columns := leadingColumns.filterMap fun c => (fields.lookup c).map (columnText styles c)
  let others := (sortByName fields).filter fun (name, _) =>
    !leadingColumns.contains name && !trailingFields.contains name
  let others := others.map fun (name, v) =>
    styles.key ++ name ++ styles.reset ++ "=" ++ styles.value ++ fieldText v ++ styles.reset
  let line := " ".intercalate ((columns ++ others).filter (!·.isEmpty))
  let line := String.ofList (line.toList.reverse.dropWhile (· == ' ')).reverse
  let below (name : String) : String := match fields.lookup name with
    | some .null => ""
    | some v => "\n" ++ v.plain
    | none => ""
  line ++ below "stack" ++ below "exception"

/-! ## For programs -/

/-- Of members with one name, only the last is kept. -/
def keepLast : List (String × Json) → List (String × Json)
  | [] => []
  | (name, v) :: rest =>
      if rest.any (·.1 == name) then keepLast rest else (name, v) :: keepLast rest

mutual

/-- Sorts the members of all objects by name, of equal names keeping the last. -/
def sortJson : Json → Json
  | .arr items => .arr (sortJsonItems items)
  | .obj members => .obj (sortByName (keepLast (sortJsonMembers members)))
  | v => v

/-- Sorts inside each item. -/
def sortJsonItems : List Json → List Json
  | [] => []
  | v :: rest => sortJson v :: sortJsonItems rest

/-- Sorts inside each member. -/
def sortJsonMembers : List (String × Json) → List (String × Json)
  | [] => []
  | (name, v) :: rest => (name, sortJson v) :: sortJsonMembers rest

end

/-- A record as a JSON object, if all its values have a JSON form. -/
def jsonLine (fields : Fields) : Except JsonFault String :=
  (Value.toJson Value.display (.map none (fields.map fun (name, v) => (.text name, v)))).map
    fun json => (sortJson json).compact

/-- A record on one line, if all its values can be written. -/
def line (form : LineForm) (fields : Fields) : Except JsonFault String :=
  match form with
  | .readable colours =>
      if fields.any (·.2.holdsLongInt) then .error .tooManyDigits
      else .ok (readableLine (if colours then colouredStyles else plainStyles) fields)
  | .json => jsonLine fields

end DevMachines.Log
