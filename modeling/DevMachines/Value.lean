import DevMachines.Calendar
import DevMachines.Text.Utf8

/-!
# Values of a settings document

A document holds scalars, lists, sets and maps, and pairs where it asks for ordered ones.  Because
one part of a document can stand for another, two places may hold *one* object rather than two
equal ones, and a collection may even contain itself.  The type says so with labels: collections,
days and moments carry an optional label, equal labels mean one object, and `again label` stands for
an enclosing collection inside itself.  A value without labels is a plain tree.

Keeping the tree in the type, instead of a table of nodes with references, is what lets every
function on values recurse on the value.

Maps keep the order of their entries.  A key keeps its first place and its first spelling when it is
written again; only its value is replaced.

Integers have any size, but one with more decimal digits than `digitLimit` cannot be written, and so
no value that holds one can.
-/

namespace DevMachines

/-- What tells objects apart: the document, by its number, and the node of the document. -/
structure Label where
  document : Nat
  node : Nat
  deriving DecidableEq, Repr, Inhabited

/-- A value of a document. -/
inductive Value where
  | null
  | bool (b : Bool)
  | int (n : Int)
  | float (x : Binary64)
  | text (s : String)
  | octets (bs : Text.Octets)
  | date (label : Option Label) (d : Date)
  | moment (label : Option Label) (m : Moment)
  | list (label : Option Label) (items : List Value)
  | pair (label : Option Label) (first second : Value)
  | set (label : Option Label) (elements : List Value)
  | map (label : Option Label) (entries : List (Value × Value))
  | again (label : Label)
  deriving Inhabited, Repr

/-- The name of the kind of a value, as reports give it. -/
def Value.kindName : Value → String
  | .null => "NoneType"
  | .bool _ => "bool"
  | .int _ => "int"
  | .float _ => "float"
  | .text _ => "str"
  | .octets _ => "bytes"
  | .date .. => "date"
  | .moment .. => "datetime"
  | .list .. => "list"
  | .pair .. => "tuple"
  | .set .. => "set"
  | .map .. => "dict"
  | .again _ => "list"

/-- Only values without changeable parts can be keys or elements of a set. -/
def Value.isKey : Value → Bool
  | .list .. => false
  | .set .. => false
  | .map .. => false
  | .again _ => false
  | .pair _ a b => a.isKey && b.isKey
  | _ => true

namespace Value

mutual

/-- Is there an integer in a value that is too long to be written? -/
def holdsLongInt : Value → Bool
  | .int n => isTooLong n
  | .list _ items => anyHoldsLongInt items
  | .pair _ a b => holdsLongInt a || holdsLongInt b
  | .set _ elements => anyHoldsLongInt elements
  | .map _ entries => entriesHoldLongInt entries
  | _ => false

/-- Is there such an integer in one of several values? -/
def anyHoldsLongInt : List Value → Bool
  | [] => false
  | v :: rest => holdsLongInt v || anyHoldsLongInt rest

/-- Is there such an integer in a key or a value? -/
def entriesHoldLongInt : List (Value × Value) → Bool
  | [] => false
  | (k, v) :: rest => holdsLongInt k || holdsLongInt v || entriesHoldLongInt rest

end

end Value
end DevMachines
