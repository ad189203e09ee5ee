import DevMachines.Value

/-!
# Equality of values

Equality compares content.  Labels do not matter, nor does the order of a map's entries or of a
set's elements.  Numbers compare across kinds: a truth value counts as zero or one, and an integer
equals a double that is exactly that integer.  Not a number equals nothing, itself included.
-/

namespace DevMachines

/-- A number, whichever kind of value holds it. -/
inductive Number where
  | exact (n : Int)
  | double (x : Binary64)

/-- Equality of numbers: exact, across kinds. -/
def Number.eq : Number → Number → Bool
  | .exact a, .exact b => a == b
  | .exact a, .double y => y.toInt? == some a
  | .double x, .exact b => x.toInt? == some b
  | .double x, .double y => x.numericEq y

namespace Value

/-- The number that a value is. -/
def number? : Value → Option Number
  | .bool b => some (.exact (if b then 1 else 0))
  | .int n => some (.exact n)
  | .float x => some (.double x)
  | _ => none

mutual

/-- Do two values have equal content? -/
def eq : Value → Value → Bool
  | .null, .null => true
  | .bool b, v => match v.number? with
      | some n => Number.eq (.exact (if b then 1 else 0)) n
      | none => false
  | .int a, v => match v.number? with
      | some n => Number.eq (.exact a) n
      | none => false
  | .float x, v => match v.number? with
      | some n => Number.eq (.double x) n
      | none => false
  | .text a, .text b => a == b
  | .octets a, .octets b => a == b
  | .date _ a, .date _ b => a == b
  | .moment _ a, .moment _ b => a.same b
  | .list _ xs, .list _ ys => eqItems xs ys
  | .pair _ a b, .pair _ c d => eq a c && eq b d
  | .set _ xs, .set _ ys => xs.length == ys.length && allAmong xs ys
  | .map _ xs, .map _ ys => xs.length == ys.length && allEntriesAmong xs ys
  | .again a, .again b => a == b
  | _, _ => false

/-- Are two lists equal place by place? -/
def eqItems : List Value → List Value → Bool
  | [], [] => true
  | x :: xs, y :: ys => eq x y && eqItems xs ys
  | _, _ => false

/-- Is every element of the first list equal to one of the second? -/
def allAmong : List Value → List Value → Bool
  | [], _ => true
  | x :: xs, ys => ys.any (eq x) && allAmong xs ys

/-- Is every entry of the first list equal to one of the second? -/
def allEntriesAmong : List (Value × Value) → List (Value × Value) → Bool
  | [], _ => true
  | (k, v) :: xs, ys => ys.any (fun entry => eq k entry.1 && eq v entry.2) && allEntriesAmong xs ys

end

/-- The value of the first entry whose key equals `key`. -/
def lookup? (key : Value) : List (Value × Value) → Option Value
  | [] => none
  | (k, v) :: rest => if eq k key then some v else lookup? key rest

/-- Writes an entry: a key that is there keeps its place and its spelling, a new one comes last. -/
def insertEntry (key value : Value) : List (Value × Value) → List (Value × Value)
  | [] => [(key, value)]
  | (k, v) :: rest => if eq k key then (k, value) :: rest else (k, v) :: insertEntry key value rest

/-- Adds an element to a set, unless an equal one is there. -/
def insertElement (element : Value) (elements : List Value) : List Value :=
  if elements.any (eq · element) then elements else elements ++ [element]

end Value
end DevMachines
