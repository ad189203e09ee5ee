import DevMachines.Json
import DevMachines.Value.Display

/-!
# Values as JSON

JSON has no days, octets or sets, and its member names are texts.  A value of another kind is
written as a text, by a rule that the caller gives; a scalar key becomes the text of the scalar; any
other key is refused, and so are a collection inside itself and an integer that is too long to be
written.
-/

namespace DevMachines

/-- Why a value has no JSON form. -/
inductive JsonFault where
  | badKey (kind : String)
  | circular
  | tooManyDigits
  deriving DecidableEq, Repr

/-- The wording of a fault. -/
def JsonFault.message : JsonFault → String
  | .badKey kind => s!"keys must be str, int, float, bool or None, not {kind}"
  | .circular => "Circular reference detected"
  | .tooManyDigits => tooLongReport

namespace Value

/-- The member name of a key. -/
def memberName : Value → Except JsonFault String
  | .text s => .ok s
  | .null => .ok "null"
  | .bool b => .ok (if b then "true" else "false")
  | .int n => if isTooLong n then .error .tooManyDigits else .ok (intText n)
  | .float x => .ok (Json.floatText x)
  | v => .error (.badKey v.kindName)

mutual

/-- The JSON form of a value; `other` writes the values that JSON has no form for. -/
def toJson (other : Value → String) : Value → Except JsonFault Json
  | .null => .ok .null
  | .bool b => .ok (.bool b)
  | .int n => if isTooLong n then .error .tooManyDigits else .ok (.int n)
  | .float x => .ok (.float x)
  | .text s => .ok (.str s)
  | .list _ items => (toJsonItems other items).map .arr
  | .pair _ a b => do
      let first ← toJson other a
      let second ← toJson other b
      pure (.arr [first, second])
  | .map _ entries => (toJsonMembers other entries).map .obj
  | .again _ => .error .circular
  | v => if v.holdsLongInt then .error .tooManyDigits else .ok (.str (other v))

/-- The JSON forms of items. -/
def toJsonItems (other : Value → String) : List Value → Except JsonFault (List Json)
  | [] => .ok []
  | v :: rest => do
      let first ← toJson other v
      let others ← toJsonItems other rest
      pure (first :: others)

/-- The JSON forms of entries; a key is judged before its value. -/
def toJsonMembers (other : Value → String) :
    List (Value × Value) → Except JsonFault (List (String × Json))
  | [] => .ok []
  | (k, v) :: rest => do
      let name ← memberName k
      let value ← toJson other v
      let others ← toJsonMembers other rest
      pure ((name, value) :: others)

end

end Value
end DevMachines
