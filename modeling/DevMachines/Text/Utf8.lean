/-!
# Octets and characters

Reading a file means decoding its octets.  A decoder that only says "no" is not enough here: the
report names the octets at fault and what is wrong with them, so `decode` returns a `DecodeFault`
that says where the faulty stretch starts, which octets it has, and whether it starts wrongly,
continues wrongly or is cut off by the end.

`leadOf` is the table of well-formed sequences: for a first octet, how many follow and the range of
the second, which is narrowed after `E0`, `ED`, `F0` and `F4` to exclude overlong forms, surrogates
and code points that do not exist.
-/

namespace DevMachines.Text

/-- The octets of a file. -/
abbrev Octets := List UInt8

/-- What is wrong with a stretch of octets. -/
inductive DecodeReason where
  | badStart
  | badContinuation
  | cutOff
  deriving DecidableEq, Repr

/-- A stretch of octets that is no character. -/
structure DecodeFault where
  position : Nat
  octets : Octets
  reason : DecodeReason
  deriving DecidableEq, Repr

/-- How many octets follow a first octet, the range of the second one, and the bits of the code
point that the first one holds. -/
structure Lead where
  following : Nat
  low : Nat
  high : Nat
  bits : Nat

/-- The table of first octets of longer sequences. -/
def leadOf (b : UInt8) : Option Lead :=
  let n := b.toNat
  if 0xc2 ≤ n && n ≤ 0xdf then some ⟨1, 0x80, 0xbf, n - 0xc0⟩
  else if n == 0xe0 then some ⟨2, 0xa0, 0xbf, 0⟩
  else if n == 0xed then some ⟨2, 0x80, 0x9f, 0xd⟩
  else if 0xe1 ≤ n && n ≤ 0xef then some ⟨2, 0x80, 0xbf, n - 0xe0⟩
  else if n == 0xf0 then some ⟨3, 0x90, 0xbf, 0⟩
  else if n == 0xf4 then some ⟨3, 0x80, 0x8f, 4⟩
  else if 0xf1 ≤ n && n ≤ 0xf3 then some ⟨3, 0x80, 0xbf, n - 0xf0⟩
  else none

/-- Reads the octets that continue a sequence: the code point, or how many of them were right and
what went wrong then. -/
def continuation (following low high bits : Nat) (seen : Nat) :
    Octets → Except (Nat × DecodeReason) Nat
  | rest =>
    match following with
    | 0 => .ok bits
    | k + 1 =>
        match rest with
        | [] => .error (seen, .cutOff)
        | b :: rest =>
            if low ≤ b.toNat && b.toNat ≤ high then
              continuation k 0x80 0xbf (bits * 64 + (b.toNat - 0x80)) (seen + 1) rest
            else .error (seen, .badContinuation)

/-- Decodes octets from a position on, given enough fuel for their number. -/
def decodeFrom (position : Nat) : Nat → Octets → Except DecodeFault (List Char)
  | 0, _ => .ok []
  | _ + 1, [] => .ok []
  | fuel + 1, b :: rest =>
      if b.toNat < 0x80 then
        (decodeFrom (position + 1) fuel rest).map (Char.ofNat b.toNat :: ·)
      else
        match leadOf b with
        | none => .error ⟨position, [b], .badStart⟩
        | some lead =>
            match continuation lead.following lead.low lead.high lead.bits 0 rest with
            | .error (seen, reason) => .error ⟨position, b :: rest.take seen, reason⟩
            | .ok code =>
                (decodeFrom (position + 1 + lead.following) fuel
                  (rest.drop lead.following)).map (Char.ofNat code :: ·)

/-- The characters of a file, or the first stretch of octets that is none. -/
def decode (octets : Octets) : Except DecodeFault (List Char) :=
  decodeFrom 0 octets.length octets

/-- The octets of a text. -/
def encode (text : String) : Octets := text.toUTF8.toList

/-- Decodes what can be decoded and puts the replacement character for every faulty stretch. -/
def decodeReplacing (fuel : Nat) (octets : Octets) : List Char :=
  match fuel with
  | 0 => []
  | fuel + 1 =>
      match decode octets with
      | .ok cs => cs
      | .error fault =>
          let before := match decode (octets.take fault.position) with
            | .ok cs => cs
            | .error _ => []
          before ++ Char.ofNat 0xfffd ::
            decodeReplacing fuel (octets.drop (fault.position + fault.octets.length))

/-- Two hexadecimal digits of an octet, in lower case. -/
def hexOctet (b : UInt8) : List Char :=
  let digits := Nat.toDigits 16 b.toNat
  if digits.length < 2 then '0' :: digits else digits

/-- The wording of a reason. -/
def DecodeReason.message : DecodeReason → String
  | .badStart => "invalid start byte"
  | .badContinuation => "invalid continuation byte"
  | .cutOff => "unexpected end of data"

/-- The report of a faulty stretch: one octet is shown, several are located. -/
def DecodeFault.message (fault : DecodeFault) : String :=
  let place := match fault.octets with
    | [b] => s!"byte 0x{String.ofList (hexOctet b)} in position {fault.position}"
    | octets => s!"bytes in position {fault.position}-{fault.position + octets.length - 1}"
  s!"'utf-8' codec can't decode {place}: {fault.reason.message}"

/-- Line ends of every kind become one line feed. -/
def unifyLineEnds : List Char → List Char
  | '\r' :: '\n' :: rest => '\n' :: unifyLineEnds rest
  | '\r' :: rest => '\n' :: unifyLineEnds rest
  | c :: rest => c :: unifyLineEnds rest
  | [] => []

end DevMachines.Text
