import DevMachines.Text.Utf8

/-!
# Octets as letters

The base-64 alphabet writes three octets as four letters.  `Base64.lines` breaks the letters into
lines of seventy-six, each closed by a line feed.  Reading is lenient: characters outside the
alphabet are skipped, and what ends the data is a quartet completed by padding.  An incomplete
quartet is refused.
-/

namespace DevMachines.Text.Base64

/-- The letter of a number below sixty-four. -/
def letter (n : Nat) : Char :=
  if n < 26 then Char.ofNat ('A'.toNat + n)
  else if n < 52 then Char.ofNat ('a'.toNat + (n - 26))
  else if n < 62 then Char.ofNat ('0'.toNat + (n - 52))
  else if n = 62 then '+' else '/'

/-- The number of a letter. -/
def value? (c : Char) : Option Nat :=
  if 'A' ≤ c ∧ c ≤ 'Z' then some (c.toNat - 'A'.toNat)
  else if 'a' ≤ c ∧ c ≤ 'z' then some (c.toNat - 'a'.toNat + 26)
  else if '0' ≤ c ∧ c ≤ '9' then some (c.toNat - '0'.toNat + 52)
  else if c = '+' then some 62
  else if c = '/' then some 63
  else none

/-- The letters of octets, without line breaks. -/
def encode : Octets → List Char
  | a :: b :: c :: rest =>
      let n := a.toNat * 65536 + b.toNat * 256 + c.toNat
      letter (n / 262144) :: letter (n / 4096 % 64) :: letter (n / 64 % 64) :: letter (n % 64) ::
        encode rest
  | [a, b] =>
      let n := a.toNat * 1024 + b.toNat * 4
      [letter (n / 4096), letter (n / 64 % 64), letter (n % 64), '=']
  | [a] =>
      let n := a.toNat * 16
      [letter (n / 64), letter (n % 64), '=', '=']
  | [] => []

/-- Breaks letters into lines of `width`, each closed by a line feed. -/
def breakLines (width : Nat) : Nat → List Char → List Char
  | 0, _ => []
  | fuel + 1, cs =>
      if cs.isEmpty then [] else cs.take width ++ '\n' :: breakLines width fuel (cs.drop width)

/-- The letters of octets in lines. -/
def lines (octets : Octets) : List Char :=
  let cs := encode octets
  breakLines 76 cs.length cs

/-- Reads letters with `pending` ones of the current quartet behind it (their number and bits) and
`pads` padding characters after them. -/
def decodeFrom (place bits pads : Nat) : List Char → Option Octets
  | [] => if place = 0 then some [] else none
  | c :: rest =>
      if c = '=' then
        if 2 ≤ place ∧ 4 ≤ place + (pads + 1) then some []
        else decodeFrom place bits (if 2 ≤ place then pads + 1 else pads) rest
      else
        match value? c with
        | none => decodeFrom place bits pads rest
        | some n =>
            match place with
            | 0 => decodeFrom 1 n 0 rest
            | 1 => (decodeFrom 2 (n % 16) 0 rest).map (UInt8.ofNat (bits * 4 + n / 16) :: ·)
            | 2 => (decodeFrom 3 (n % 4) 0 rest).map (UInt8.ofNat (bits * 16 + n / 4) :: ·)
            | _ => (decodeFrom 0 0 0 rest).map (UInt8.ofNat (bits * 64 + n) :: ·)

/-- The octets that letters stand for, if no quartet is left incomplete. -/
def decode (cs : List Char) : Option Octets := decodeFrom 0 0 0 cs

end DevMachines.Text.Base64
