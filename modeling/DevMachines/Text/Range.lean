/-!
# Tables of code points

Character properties come as sorted arrays of inclusive ranges.  `inRanges` finds the range by
halving, so a look-up takes a dozen steps even in the largest table.
-/

namespace DevMachines.Text

/-- The number of entries at the front of `table[low, high)` that start at or before `code`, counted
from the start of the table. -/
def rangesBefore (table : Array (Nat × Nat)) (code low high : Nat) : Nat → Nat
  | 0 => low
  | fuel + 1 =>
      if high ≤ low then low
      else
        let middle := (low + high) / 2
        match table[middle]? with
        | none => low
        | some (first, _) =>
            if first ≤ code then rangesBefore table code (middle + 1) high fuel
            else rangesBefore table code low middle fuel

/-- Is the code point in one of the ranges of a sorted table? -/
def inRanges (table : Array (Nat × Nat)) (code : Nat) : Bool :=
  match rangesBefore table code 0 table.size (table.size.log2 + 2) with
  | 0 => false
  | n + 1 =>
      match table[n]? with
      | some (_, last) => code ≤ last
      | none => false

end DevMachines.Text
