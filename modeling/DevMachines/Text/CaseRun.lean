/-!
# Runs of letters

Most letters are a fixed distance away from their counterparts in the other case, in runs of
neighbours or of every second code point.  So a case mapping is a short table of runs.
-/

namespace DevMachines.Text

/-- Code points `first`, `first + stride`, …, `last`, each `shift` away from its counterpart. -/
structure CaseRun where
  first : Nat
  last : Nat
  stride : Nat
  shift : Int

namespace CaseRun

/-- Is a code point in a run? -/
def has (r : CaseRun) (code : Nat) : Bool :=
  r.first ≤ code && code ≤ r.last && (code - r.first) % r.stride == 0

/-- The counterpart of a character, or the character itself if no run has it. -/
def moved (runs : Array CaseRun) (c : Char) : Char :=
  match runs.find? (·.has c.toNat) with
  | some r => Char.ofNat (c.toNat + r.shift).toNat
  | none => c

end CaseRun
end DevMachines.Text
