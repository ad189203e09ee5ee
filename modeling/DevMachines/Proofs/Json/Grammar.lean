import DevMachines.Json.Reader
import DevMachines.Proofs.Number.Digits
import Mathlib.Data.List.DropRight

/-!
# Which texts are JSON, and what they denote

The grammar of JSON as a relation between values and the characters that denote them
(`IsText`), and the reader is complete for it: whatever the grammar derives is read, and read as the
value that it denotes.  So no text denotes two values.

Main statements: `parse_of_isText`, and from it `isText_unique`.

## Why the grammar is not the reader

The reader takes more than JSON: the names of the doubles that are no numbers, numbers with zeros in
front of them, and the like.  That a text can be read therefore does not say that it is well formed,
and the grammar does, because it derives nothing else.

## What follows a value

A number ends where a character stands that no number has, so a value is read to its end only if
such a character, or nothing, follows it (`EndsValue`).  The brackets, commas and blanks that follow
values in a text are such characters.
-/

namespace DevMachines
namespace Json

/-! ## Texts in quotes -/

/-- Are these nothing but blanks? -/
def AreSpaces (cs : List Char) : Prop := ∀ c ∈ cs, isSpace c = true

/-- Do four hexadecimal digits denote a number? -/
def SpellsUnit (n : Nat) (digits : List Char) : Prop :=
  digits.length = 4 ∧ readDigits? 16 digits = some n

/-- The escapes of one letter, and what they stand for. -/
def shortEscapes : List (Char × Char) := [
  ('"', '"'), ('\\', '\\'), ('/', '/'), ('b', '\x08'), ('f', '\x0c'), ('n', '\n'), ('r', '\r'),
  ('t', '\t')]

/-- Does a text stand between quotes as these characters? -/
inductive Spells : List Char → List Char → Prop
  | nil : Spells [] []
  | plain {c : Char} {text cs : List Char} (hcontrol : ' ' ≤ c) (hquote : c ≠ '"')
      (hbackslash : c ≠ '\\') (h : Spells text cs) : Spells (c :: text) (c :: cs)
  | short {letter c : Char} {text cs : List Char} (hc : (letter, c) ∈ shortEscapes)
      (h : Spells text cs) : Spells (c :: text) ('\\' :: letter :: cs)
  | unit {c : Char} {digits text cs : List Char} (hdigits : SpellsUnit c.toNat digits)
      (h : Spells text cs) : Spells (c :: text) ('\\' :: 'u' :: (digits ++ cs))
  /-- A character beyond the basic plane is a pair of surrogates. -/
  | pair {c : Char} {high low text cs : List Char} (hbeyond : 0x10000 ≤ c.toNat)
      (hhigh : SpellsUnit (0xd800 + (c.toNat - 0x10000) / 0x400) high)
      (hlow : SpellsUnit (0xdc00 + (c.toNat - 0x10000) % 0x400) low) (h : Spells text cs) :
      Spells (c :: text) ('\\' :: 'u' :: (high ++ '\\' :: 'u' :: (low ++ cs)))

/-! ## Numbers -/

/-- Are these decimal digits, one at least? -/
def AreDigits (cs : List Char) : Prop := cs ≠ [] ∧ ∀ c ∈ cs, (digitValue? c).isSome

/-- Are these the digits of a whole number, without a zero in front? -/
def IsWhole (cs : List Char) : Prop := AreDigits cs ∧ (cs.head? = some '0' → cs = ['0'])

/-- Is this an integer? -/
def IsInteger (cs : List Char) : Prop :=
  ∃ sign whole, (sign = [] ∨ sign = ['-']) ∧ IsWhole whole ∧ cs = sign ++ whole

/-- Is this the part of a number behind its point, with the point? -/
def IsFraction (cs : List Char) : Prop := ∃ digits, AreDigits digits ∧ cs = '.' :: digits

/-- Is this the exponent of a number? -/
def IsExponent (cs : List Char) : Prop :=
  ∃ letter sign digits, (letter = 'e' ∨ letter = 'E') ∧ (sign = [] ∨ sign = ['-'] ∨ sign = ['+']) ∧
    AreDigits digits ∧ cs = letter :: (sign ++ digits)

/-- Is this a number that has a point or an exponent? -/
def IsDecimal (cs : List Char) : Prop :=
  ∃ whole fraction exponent, IsInteger whole ∧
    (IsFraction fraction ∧ exponent = [] ∨ fraction = [] ∧ IsExponent exponent ∨
      IsFraction fraction ∧ IsExponent exponent) ∧
    cs = whole ++ fraction ++ exponent

/-! ## Values -/

mutual

/-- Does a value stand in a text as these characters? -/
inductive Denotes : Json → List Char → Prop
  | null : Denotes .null "null".toList
  | bool (b : Bool) : Denotes (.bool b) (if b then "true" else "false").toList
  | int {n : Int} {cs : List Char} (h : IsInteger cs) (hn : readInt? cs = some n) :
      Denotes (.int n) cs
  | float {x : Binary64} {cs : List Char} (h : IsDecimal cs) (hx : Binary64.ofText? cs = some x) :
      Denotes (.float x) cs
  | str {s : String} {cs : List Char} (h : Spells s.toList cs) :
      Denotes (.str s) ('"' :: (cs ++ ['"']))
  | emptyArr {cs : List Char} (h : AreSpaces cs) : Denotes (.arr []) ('[' :: (cs ++ [']']))
  | arr {items : List Json} {cs : List Char} (h : ItemsDenote items cs) :
      Denotes (.arr items) ('[' :: (cs ++ [']']))
  | emptyObj {cs : List Char} (h : AreSpaces cs) : Denotes (.obj []) ('\x7b' :: (cs ++ ['\x7d']))
  | obj {members : List (String × Json)} {cs : List Char} (h : MembersDenote members cs) :
      Denotes (.obj members) ('\x7b' :: (cs ++ ['\x7d']))

/-- Does a value stand in a text as these characters, with blanks around it? -/
inductive IsText : Json → List Char → Prop
  | mk {v : Json} {before cs after : List Char} (hbefore : AreSpaces before) (h : Denotes v cs)
      (hafter : AreSpaces after) : IsText v (before ++ cs ++ after)

/-- Are these the items of an array, one at least? -/
inductive ItemsDenote : List Json → List Char → Prop
  | single {v : Json} {cs : List Char} (h : IsText v cs) : ItemsDenote [v] cs
  | cons {v : Json} {items : List Json} {cs rest : List Char} (h : IsText v cs)
      (hitems : ItemsDenote items rest) : ItemsDenote (v :: items) (cs ++ ',' :: rest)

/-- Is this a member of an object? -/
inductive MemberDenotes : String × Json → List Char → Prop
  | mk {name : String} {v : Json} {before key after cs : List Char} (hbefore : AreSpaces before)
      (hname : Spells name.toList key) (hafter : AreSpaces after) (h : IsText v cs) :
      MemberDenotes (name, v) (before ++ '"' :: (key ++ '"' :: (after ++ ':' :: cs)))

/-- Are these the members of an object, one at least? -/
inductive MembersDenote : List (String × Json) → List Char → Prop
  | single {m : String × Json} {cs : List Char} (h : MemberDenotes m cs) : MembersDenote [m] cs
  | cons {m : String × Json} {members : List (String × Json)} {cs rest : List Char}
      (h : MemberDenotes m cs) (hmembers : MembersDenote members rest) :
      MembersDenote (m :: members) (cs ++ ',' :: rest)

end

/-! ## Reading blanks -/

theorem skipSpaces_append {cs : List Char} (h : AreSpaces cs) (rest : List Char) :
    skipSpaces (cs ++ rest) = skipSpaces rest := by
  induction cs with
  | nil => rfl
  | cons c cs ih =>
    have hc : isSpace c = true := h c (List.mem_cons_self ..)
    simpa [skipSpaces, hc] using ih fun d hd => h d (List.mem_cons_of_mem c hd)

theorem skipSpaces_cons {c : Char} (h : isSpace c = false) (rest : List Char) :
    skipSpaces (c :: rest) = c :: rest := by
  simp [skipSpaces, h]

/-! ## Reading texts in quotes -/

theorem readUnit_append {n : Nat} {digits : List Char} (h : SpellsUnit n digits)
    (rest : List Char) : readUnit (digits ++ rest) = some (n, rest) := by
  obtain ⟨hlength, hn⟩ := h
  match digits, hlength with
  | [a, b, c, d], _ => simp [readUnit, hn]

theorem toNat_not_surrogate (c : Char) : c.toNat < 0xd800 ∨ 0xdfff < c.toNat := by
  rcases c.valid with h | h
  · exact Or.inl h
  · exact Or.inr h.1

theorem readEscape_short {letter c : Char} (hc : (letter, c) ∈ shortEscapes) (rest : List Char) :
    readEscape (letter :: rest) = some (c, rest) := by
  simp only [shortEscapes, List.mem_cons, Prod.mk.injEq, List.not_mem_nil, or_false] at hc
  rcases hc with h | h | h | h | h | h | h | h <;> obtain ⟨rfl, rfl⟩ := h <;> rfl

theorem readEscape_unit {c : Char} {digits : List Char} (h : SpellsUnit c.toNat digits)
    (rest : List Char) : readEscape ('u' :: (digits ++ rest)) = some (c, rest) := by
  show readUnits (digits ++ rest) = _
  simp [readUnits, readUnit_append h, toNat_not_surrogate c]

theorem readUnits_pair {q r : Nat} {high low : List Char} (hq : q < 0x400) (hr : r < 0x400)
    (hhigh : SpellsUnit (0xd800 + q) high) (hlow : SpellsUnit (0xdc00 + r) low)
    (rest : List Char) :
    readUnits (high ++ '\\' :: 'u' :: (low ++ rest)) =
      some (Char.ofNat (0x10000 + q * 0x400 + r), rest) := by
  have hhighest : ¬(0xd800 + q < 0xd800 ∨ 0xdfff < 0xd800 + q) := by omega
  have hfirst : ¬0xdc00 ≤ 0xd800 + q := by omega
  have hsecond : 0xdc00 ≤ 0xdc00 + r ∧ 0xdc00 + r ≤ 0xdfff := by omega
  rw [readUnits, readUnit_append hhigh]
  simp only [Option.bind_eq_bind, Option.bind_some, if_neg hhighest, if_neg hfirst,
    readUnit_append hlow, if_pos hsecond, pairChar, Nat.add_sub_cancel_left]
  rfl

theorem readEscape_pair {c : Char} {high low : List Char} (hbeyond : 0x10000 ≤ c.toNat)
    (hhigh : SpellsUnit (0xd800 + (c.toNat - 0x10000) / 0x400) high)
    (hlow : SpellsUnit (0xdc00 + (c.toNat - 0x10000) % 0x400) low) (rest : List Char) :
    readEscape ('u' :: (high ++ '\\' :: 'u' :: (low ++ rest))) = some (c, rest) := by
  have hlt := toNat_lt c
  have hread := readUnits_pair (by omega) (by omega) hhigh hlow rest
  have hsum : 0x10000 + (c.toNat - 0x10000) / 0x400 * 0x400 + (c.toNat - 0x10000) % 0x400 =
      c.toNat := by omega
  rw [hsum, Char.ofNat_toNat] at hread
  rw [readEscape, hread]

/-- An escape is read as one character, and the reading goes on behind it. -/
theorem readChars_escape {fuel : Nat} {c : Char} {cs rest text : List Char}
    (hescape : readEscape cs = some (c, rest)) {left : List Char}
    (hrest : readChars fuel rest = some (text, left)) :
    readChars (fuel + 1) ('\\' :: cs) = some (c :: text, left) := by
  simp [readChars, hescape, hrest]

/-- What stands between quotes is read as the text that it is. -/
theorem readChars_of_spells {text cs : List Char} (h : Spells text cs) (fuel : Nat)
    (hfuel : cs.length < fuel) (rest : List Char) :
    readChars fuel (cs ++ '"' :: rest) = some (text, rest) := by
  induction h generalizing fuel with
  | nil =>
    obtain ⟨fuel, rfl⟩ := Nat.exists_eq_add_of_lt hfuel
    rfl
  | plain hcontrol hquote hbackslash h ih =>
    rw [List.length_cons] at hfuel
    obtain ⟨fuel, rfl⟩ : ∃ k, fuel = k + 1 := ⟨fuel - 1, by omega⟩
    have hcontrol' : ¬ _ < ' ' := Char.not_lt.mpr hcontrol
    simp [readChars, hquote, hbackslash, hcontrol', ih fuel (by omega)]
  | short hc h ih =>
    simp only [List.length_cons] at hfuel
    obtain ⟨fuel, rfl⟩ : ∃ k, fuel = k + 1 := ⟨fuel - 1, by omega⟩
    exact readChars_escape (readEscape_short hc _) (ih fuel (by omega))
  | unit hdigits h ih =>
    simp only [List.length_cons, List.length_append] at hfuel
    obtain ⟨fuel, rfl⟩ : ∃ k, fuel = k + 1 := ⟨fuel - 1, by omega⟩
    simp only [List.cons_append, List.append_assoc]
    exact readChars_escape (readEscape_unit hdigits _) (ih fuel (by omega))
  | pair hbeyond hhigh hlow h ih =>
    simp only [List.length_cons, List.length_append] at hfuel
    obtain ⟨fuel, rfl⟩ : ∃ k, fuel = k + 1 := ⟨fuel - 1, by omega⟩
    simp only [List.cons_append, List.append_assoc]
    exact readChars_escape (readEscape_pair hbeyond hhigh hlow _) (ih fuel (by omega))

theorem readText_of_spells {s : String} {cs : List Char} (h : Spells s.toList cs)
    (rest : List Char) : readText ('"' :: (cs ++ '"' :: rest)) = some (s, rest) := by
  have hread := readChars_of_spells h ((cs ++ '"' :: rest).length + 1)
    (by simp only [List.length_append]; omega) rest
  rw [readText, hread]
  exact congrArg (fun s => some (s, rest)) String.ofList_toList

/-! ## Reading numbers -/

/-- Does nothing follow that could belong to a number? -/
def EndsValue (rest : List Char) : Prop := ∀ c ∈ rest.head?, isNumberChar c = false

theorem isNumberChar_of_digit {c : Char} (h : (digitValue? c).isSome) : isNumberChar c = true := by
  simp [isNumberChar, h]

theorem IsInteger.isNumberChar {cs : List Char} (h : IsInteger cs) :
    ∀ c ∈ cs, isNumberChar c = true := by
  obtain ⟨sign, whole, hsign, ⟨⟨-, hdigits⟩, -⟩, rfl⟩ := h
  intro c hc
  rcases List.mem_append.mp hc with hc | hc
  · rcases hsign with rfl | rfl
    · cases hc
    · obtain rfl := List.mem_singleton.mp hc
      rfl
  · exact isNumberChar_of_digit (hdigits c hc)

theorem takeWhile_isNumberChar {cs rest : List Char} (hcs : ∀ c ∈ cs, isNumberChar c = true)
    (hrest : EndsValue rest) : (cs ++ rest).takeWhile isNumberChar = cs :=
  takeWhile_append_stop hcs hrest

theorem dropWhile_isNumberChar {cs rest : List Char} (hcs : ∀ c ∈ cs, isNumberChar c = true)
    (hrest : EndsValue rest) : (cs ++ rest).dropWhile isNumberChar = rest :=
  dropWhile_append_stop hcs hrest

/-- Is this character a mark that integers do not have? -/
def isDecimalMark (c : Char) : Bool := c == '.' || c == 'e' || c == 'E'

theorem ne_of_digit {c d : Char} (hc : (digitValue? c).isSome) (hd : digitValue? d = none) :
    c ≠ d := by
  rintro rfl
  rw [hd] at hc
  cases hc

theorem isDecimalMark_of_digit {c : Char} (h : (digitValue? c).isSome) :
    isDecimalMark c = false := by
  simp [isDecimalMark, ne_of_digit h (d := '.') rfl, ne_of_digit h (d := 'e') rfl,
    ne_of_digit h (d := 'E') rfl]

theorem IsInteger.any_isDecimalMark {cs : List Char} (h : IsInteger cs) :
    cs.any isDecimalMark = false := by
  obtain ⟨sign, whole, hsign, ⟨⟨-, hdigits⟩, -⟩, rfl⟩ := h
  have hwhole : whole.any isDecimalMark = false :=
    List.any_eq_false.mpr fun c hc => by simp [isDecimalMark_of_digit (hdigits c hc)]
  rcases hsign with rfl | rfl
  · exact hwhole
  · simpa [isDecimalMark] using hwhole

theorem IsFraction.isNumberChar {cs : List Char} (h : IsFraction cs) :
    ∀ c ∈ cs, isNumberChar c = true := by
  obtain ⟨digits, ⟨-, hdigits⟩, rfl⟩ := h
  intro c hc
  rcases List.mem_cons.mp hc with rfl | hc
  · rfl
  · exact isNumberChar_of_digit (hdigits c hc)

theorem IsExponent.isNumberChar {cs : List Char} (h : IsExponent cs) :
    ∀ c ∈ cs, isNumberChar c = true := by
  obtain ⟨letter, sign, digits, hletter, hsign, ⟨-, hdigits⟩, rfl⟩ := h
  intro c hc
  rcases List.mem_cons.mp hc with rfl | hc
  · rcases hletter with rfl | rfl <;> rfl
  · rcases List.mem_append.mp hc with hc | hc
    · rcases hsign with rfl | rfl | rfl
      · cases hc
      · obtain rfl := List.mem_singleton.mp hc
        rfl
      · obtain rfl := List.mem_singleton.mp hc
        rfl
    · exact isNumberChar_of_digit (hdigits c hc)

/-- All of a decimal is read as a number, and not as an integer. -/
theorem IsDecimal.isNumberChar {cs : List Char} (h : IsDecimal cs) :
    ∀ c ∈ cs, isNumberChar c = true := by
  obtain ⟨whole, fraction, exponent, hwhole, hparts, rfl⟩ := h
  simp only [List.mem_append]
  rintro c ((hc | hc) | hc)
  · exact hwhole.isNumberChar c hc
  · rcases hparts with ⟨hfraction, -⟩ | ⟨rfl, -⟩ | ⟨hfraction, -⟩
    · exact hfraction.isNumberChar c hc
    · cases hc
    · exact hfraction.isNumberChar c hc
  · rcases hparts with ⟨-, rfl⟩ | ⟨-, hexponent⟩ | ⟨-, hexponent⟩
    · cases hc
    · exact hexponent.isNumberChar c hc
    · exact hexponent.isNumberChar c hc

theorem IsDecimal.any_isDecimalMark {cs : List Char} (h : IsDecimal cs) :
    cs.any isDecimalMark = true := by
  obtain ⟨whole, fraction, exponent, -, hparts, rfl⟩ := h
  have hpoint : IsFraction fraction → fraction.any isDecimalMark = true := by
    rintro ⟨digits, -, rfl⟩
    rfl
  have hletter : IsExponent exponent → exponent.any isDecimalMark = true := by
    rintro ⟨letter, sign, digits, rfl | rfl, -, -, rfl⟩ <;> rfl
  simp only [List.any_append, Bool.or_eq_true]
  rcases hparts with ⟨hfraction, -⟩ | ⟨-, hexponent⟩ | ⟨hfraction, -⟩
  · exact Or.inl (Or.inr (hpoint hfraction))
  · exact Or.inr (hletter hexponent)
  · exact Or.inl (Or.inr (hpoint hfraction))

/-- Does a text begin with a digit, or with a minus and a digit? -/
def beginsNumber : List Char → Bool
  | '-' :: d :: _ => (digitValue? d).isSome
  | c :: _ => (digitValue? c).isSome
  | [] => false

theorem IsInteger.beginsNumber {cs : List Char} (h : IsInteger cs) (rest : List Char) :
    beginsNumber (cs ++ rest) = true := by
  obtain ⟨sign, whole, hsign, ⟨⟨hne, hdigits⟩, -⟩, rfl⟩ := h
  cases whole with
  | nil => exact absurd rfl hne
  | cons d whole =>
    have hd := hdigits d (List.mem_cons_self ..)
    rcases hsign with rfl | rfl
    · have hminus : d ≠ '-' := ne_of_digit hd rfl
      simp [Json.beginsNumber, hd, hminus]
    · simpa [Json.beginsNumber] using hd

theorem beginsNumber_append {cs : List Char} (h : 2 ≤ cs.length) (rest : List Char) :
    beginsNumber (cs ++ rest) = beginsNumber cs := by
  match cs, h with
  | a :: b :: cs, _ =>
    by_cases ha : a = '-'
    · subst ha
      rfl
    · simp [beginsNumber, ha]

/-- A number begins as no name does. -/
theorem readNamed_of_beginsNumber {cs : List Char} (h : beginsNumber cs = true) :
    readNamed cs = none := by
  have hnames : ∀ p ∈ namedValues, 2 ≤ p.1.toList.length ∧ beginsNumber p.1.toList = false := by
    simp only [namedValues, List.forall_mem_cons]
    decide
  refine List.findSome?_eq_none_iff.mpr fun p hp => if_neg fun hprefix => ?_
  obtain ⟨hlength, hname⟩ := hnames p hp
  obtain ⟨rest, rfl⟩ := List.isPrefixOf_iff_prefix.mp hprefix
  rw [beginsNumber_append hlength, hname] at h
  cases h

theorem readScalar_of_beginsNumber {cs : List Char} (h : beginsNumber cs = true) :
    readScalar cs = readNumber cs := by
  rw [readScalar, readNamed_of_beginsNumber h]
  · rfl
  · rintro rest rfl
    cases h

theorem readScalar_integer {n : Int} {cs rest : List Char} (h : IsInteger cs)
    (hn : readInt? cs = some n) (hrest : EndsValue rest) :
    readScalar (cs ++ rest) = some (.int n, rest) := by
  have hmark : (cs.any fun c => c == '.' || c == 'e' || c == 'E') = false := h.any_isDecimalMark
  rw [readScalar_of_beginsNumber (h.beginsNumber rest), readNumber,
    takeWhile_isNumberChar h.isNumberChar hrest, dropWhile_isNumberChar h.isNumberChar hrest]
  simp [hmark, hn]

theorem IsDecimal.beginsNumber {cs : List Char} (h : IsDecimal cs) (rest : List Char) :
    beginsNumber (cs ++ rest) = true := by
  obtain ⟨whole, fraction, exponent, hwhole, -, rfl⟩ := h
  simpa using hwhole.beginsNumber (fraction ++ exponent ++ rest)

theorem readScalar_decimal {x : Binary64} {cs rest : List Char} (h : IsDecimal cs)
    (hx : Binary64.ofText? cs = some x) (hrest : EndsValue rest) :
    readScalar (cs ++ rest) = some (.float x, rest) := by
  have hmark : (cs.any fun c => c == '.' || c == 'e' || c == 'E') = true := h.any_isDecimalMark
  rw [readScalar_of_beginsNumber (h.beginsNumber rest), readNumber,
    takeWhile_isNumberChar h.isNumberChar hrest, dropWhile_isNumberChar h.isNumberChar hrest]
  simp [hmark, hx]

/-! ## Reading values -/

theorem endsValue_cons {c : Char} (h : isNumberChar c = false) (rest : List Char) :
    EndsValue (c :: rest) := by
  rintro d ⟨⟩
  exact h

theorem endsValue_spaces {cs rest : List Char} (h : AreSpaces cs) (hrest : EndsValue rest) :
    EndsValue (cs ++ rest) := by
  cases cs with
  | nil => exact hrest
  | cons c cs =>
    refine endsValue_cons ?_ _
    have hc : isSpace c = true := h c (List.mem_cons_self ..)
    simp only [isSpace, Bool.or_eq_true, beq_iff_eq] at hc
    rcases hc with ((rfl | rfl) | rfl) | rfl <;> rfl

/-- A value without parts is read by the reader of such values, behind blanks. -/
theorem readValue_scalar {before cs : List Char} (hbefore : AreSpaces before)
    (hcs : ∀ c ∈ cs.head?, isSpace c = false ∧ c ≠ '[' ∧ c ≠ '\x7b') (hne : cs ≠ []) (fuel : Nat) :
    readValue (fuel + 1) (before ++ cs) = readScalar cs := by
  cases cs with
  | nil => exact absurd rfl hne
  | cons c cs =>
    obtain ⟨hspace, harr, hobj⟩ := hcs c rfl
    rw [readValue, skipSpaces_append hbefore, skipSpaces_cons hspace]
    split
    · next h => exact absurd (List.cons.inj h).1 harr
    · next h =>
      obtain ⟨rfl, rfl⟩ := List.cons.inj h
      rw [if_neg hobj]
    · next h => cases h

theorem head_of_beginsNumber {cs : List Char} (h : beginsNumber cs = true) :
    cs ≠ [] ∧ ∀ c ∈ cs.head?, isSpace c = false ∧ c ≠ '[' ∧ c ≠ '\x7b' := by
  cases cs with
  | nil => cases h
  | cons c cs =>
    refine ⟨List.cons_ne_nil c cs, ?_⟩
    rintro _ ⟨⟩
    by_cases hminus : c = '-'
    · subst hminus
      decide
    · have hdigit : (digitValue? c).isSome := by
        rw [beginsNumber] at h
        · exact h
        · rintro d rest rfl
          exact absurd rfl hminus
      have hne := fun d hd => ne_of_digit (d := d) hdigit hd
      simp [isSpace, hne ' ' rfl, hne '\n' rfl, hne '\t' rfl, hne '\r' rfl, hne '[' rfl,
        hne '\x7b' rfl]

@[simp] theorem skipSpaces_skipSpaces (cs : List Char) :
    skipSpaces (skipSpaces cs) = skipSpaces cs :=
  List.dropWhile_idempotent isSpace cs

@[simp] theorem readValue_skipSpaces (fuel : Nat) (cs : List Char) :
    readValue fuel (skipSpaces cs) = readValue fuel cs := by
  cases fuel with
  | zero => rfl
  | succ fuel => rw [readValue, readValue, skipSpaces_skipSpaces]

@[simp] theorem readItems_skipSpaces (fuel : Nat) (cs : List Char) :
    readItems fuel (skipSpaces cs) = readItems fuel cs := by
  cases fuel with
  | zero => rfl
  | succ fuel => rw [readItems, readItems, readValue_skipSpaces]

@[simp] theorem readMembers_skipSpaces (fuel : Nat) (cs : List Char) :
    readMembers fuel (skipSpaces cs) = readMembers fuel cs := by
  cases fuel with
  | zero => rfl
  | succ fuel => rw [readMembers, readMembers, skipSpaces_skipSpaces]

/-- What begins a value is no blank, and closes nothing. -/
theorem exists_cons_of_denotes {v : Json} {cs : List Char} (h : Denotes v cs) :
    ∃ c tail, cs = c :: tail ∧ isSpace c = false ∧ c ≠ ']' := by
  have hnumber : beginsNumber cs = true →
      ∃ c tail, cs = c :: tail ∧ isSpace c = false ∧ c ≠ ']' := by
    intro hbegins
    obtain ⟨hne, hhead⟩ := head_of_beginsNumber hbegins
    obtain ⟨c, tail, rfl⟩ := List.exists_cons_of_ne_nil hne
    refine ⟨c, tail, rfl, (hhead c rfl).1, ?_⟩
    rintro rfl
    cases hbegins
  cases h with
  | null => exact ⟨'n', _, rfl, by decide⟩
  | bool b => cases b <;> exact ⟨_, _, rfl, by decide⟩
  | int h hn => exact hnumber (by simpa using h.beginsNumber [])
  | float h hx => exact hnumber (by simpa using h.beginsNumber [])
  | str h => exact ⟨'"', _, rfl, by decide⟩
  | emptyArr h | arr h => exact ⟨'[', _, rfl, by decide⟩
  | emptyObj h | obj h => exact ⟨'\x7b', _, rfl, by decide⟩

theorem readValue_emptyArr {before cs rest : List Char} (hbefore : AreSpaces before)
    (h : skipSpaces cs = ']' :: rest) (fuel : Nat) :
    readValue (fuel + 1) (before ++ '[' :: cs) = some (.arr [], rest) := by
  simp [readValue, skipSpaces_append hbefore, skipSpaces_cons (c := '[') rfl, h]

theorem readValue_arr {before cs rest tail : List Char} {c : Char} {items : List Json} {fuel : Nat}
    (hbefore : AreSpaces before) (hcs : skipSpaces cs = c :: tail) (hc : c ≠ ']')
    (h : readItems fuel cs = some (items, rest)) :
    readValue (fuel + 1) (before ++ '[' :: cs) = some (.arr items, rest) := by
  rw [← readItems_skipSpaces, hcs] at h
  simp [readValue, skipSpaces_append hbefore, skipSpaces_cons (c := '[') rfl, hcs, hc, h]

theorem readValue_emptyObj {before cs rest : List Char} (hbefore : AreSpaces before)
    (h : skipSpaces cs = '\x7d' :: rest) (fuel : Nat) :
    readValue (fuel + 1) (before ++ '\x7b' :: cs) = some (.obj [], rest) := by
  simp [readValue, skipSpaces_append hbefore, skipSpaces_cons (c := '\x7b') rfl, h]

theorem readValue_obj {before cs rest tail : List Char} {c : Char}
    {members : List (String × Json)} {fuel : Nat} (hbefore : AreSpaces before)
    (hcs : skipSpaces cs = c :: tail) (hc : c ≠ '\x7d')
    (h : readMembers fuel cs = some (members, rest)) :
    readValue (fuel + 1) (before ++ '\x7b' :: cs) = some (.obj members, rest) := by
  rw [← readMembers_skipSpaces, hcs] at h
  simp [readValue, skipSpaces_append hbefore, skipSpaces_cons (c := '\x7b') rfl, hcs, hc, h]

theorem readItems_single {fuel : Nat} {cs mid rest : List Char} {v : Json}
    (hv : readValue fuel cs = some (v, mid)) (hmid : skipSpaces mid = ']' :: rest) :
    readItems (fuel + 1) cs = some ([v], rest) := by
  simp [readItems, hv, hmid]

theorem readItems_cons {fuel : Nat} {cs mid more rest : List Char} {v : Json} {items : List Json}
    (hv : readValue fuel cs = some (v, mid)) (hmid : skipSpaces mid = ',' :: more)
    (h : readItems fuel more = some (items, rest)) :
    readItems (fuel + 1) cs = some (v :: items, rest) := by
  simp [readItems, hv, hmid, h]

/-- Is a member read from the front of a text, and is this what is left? -/
def ReadsMember (fuel : Nat) (cs : List Char) (m : String × Json) (left : List Char) : Prop :=
  ∃ mid tail, readText (skipSpaces cs) = some (m.1, mid) ∧ skipSpaces mid = ':' :: tail ∧
    readValue fuel tail = some (m.2, left)

theorem readMembers_single {fuel : Nat} {cs left rest : List Char} {m : String × Json}
    (hm : ReadsMember fuel cs m left) (hleft : skipSpaces left = '\x7d' :: rest) :
    readMembers (fuel + 1) cs = some ([m], rest) := by
  obtain ⟨mid, tail, hname, hmid, hv⟩ := hm
  simp [readMembers, hname, hmid, hv, hleft]

theorem readMembers_cons {fuel : Nat} {cs left more rest : List Char} {m : String × Json}
    {members : List (String × Json)} (hm : ReadsMember fuel cs m left)
    (hleft : skipSpaces left = ',' :: more)
    (h : readMembers fuel more = some (members, rest)) :
    readMembers (fuel + 1) cs = some (m :: members, rest) := by
  obtain ⟨mid, tail, hname, hmid, hv⟩ := hm
  simp [readMembers, hname, hmid, hv, hleft, h]

theorem skipSpaces_append_cons {after : List Char} (hafter : AreSpaces after) {c : Char}
    (hc : isSpace c = false) (rest : List Char) : skipSpaces (after ++ c :: rest) = c :: rest := by
  rw [skipSpaces_append hafter, skipSpaces_cons hc]

theorem exists_cons_of_itemsDenote {items : List Json} {cs : List Char}
    (h : ItemsDenote items cs) (rest : List Char) :
    ∃ c tail, skipSpaces (cs ++ rest) = c :: tail ∧ c ≠ ']' := by
  have htext : ∀ {v cs}, IsText v cs → ∀ rest, ∃ c tail, skipSpaces (cs ++ rest) = c :: tail ∧
      c ≠ ']' := by
    rintro _ _ ⟨hbefore, h, -⟩ rest
    obtain ⟨c, tail, rfl, hspace, hc⟩ := exists_cons_of_denotes h
    rw [List.append_assoc, List.append_assoc, List.cons_append,
      skipSpaces_append_cons hbefore hspace]
    exact ⟨c, _, rfl, hc⟩
  cases h with
  | single h => exact htext h rest
  | cons h hitems =>
    rw [List.append_assoc]
    exact htext h _

theorem exists_cons_of_membersDenote {members : List (String × Json)} {cs : List Char}
    (h : MembersDenote members cs) (rest : List Char) :
    ∃ c tail, skipSpaces (cs ++ rest) = c :: tail ∧ c ≠ '\x7d' := by
  have hmember : ∀ {m cs}, MemberDenotes m cs → ∀ rest, ∃ c tail,
      skipSpaces (cs ++ rest) = c :: tail ∧ c ≠ '\x7d' := by
    rintro _ _ ⟨hbefore, -, -, -⟩ rest
    rw [List.append_assoc, List.cons_append, skipSpaces_append_cons hbefore rfl]
    exact ⟨'"', _, rfl, by decide⟩
  cases h with
  | single h => exact hmember h rest
  | cons h hmembers =>
    rw [List.append_assoc]
    exact hmember h _

/-! ## What denotes a value is read as that value -/

mutual

theorem readValue_of_denotes {v : Json} {cs : List Char} (h : Denotes v cs) (fuel : Nat)
    (hfuel : cs.length < fuel) {before rest : List Char} (hbefore : AreSpaces before)
    (hrest : EndsValue rest) : readValue fuel (before ++ (cs ++ rest)) = some (v, rest) := by
  obtain ⟨fuel, rfl⟩ : ∃ k, fuel = k + 1 := ⟨fuel - 1, by omega⟩
  cases h with
  | null =>
    rw [readValue_scalar hbefore (by simp; decide) (by simp)]
    rfl
  | bool b =>
    rw [readValue_scalar hbefore (by cases b <;> simp <;> decide) (by cases b <;> simp)]
    cases b <;> rfl
  | int h hn =>
    obtain ⟨hne, hhead⟩ := head_of_beginsNumber (h.beginsNumber rest)
    rw [readValue_scalar hbefore hhead hne, readScalar_integer h hn hrest]
  | float h hx =>
    obtain ⟨hne, hhead⟩ := head_of_beginsNumber (h.beginsNumber rest)
    rw [readValue_scalar hbefore hhead hne, readScalar_decimal h hx hrest]
  | str h =>
    rw [readValue_scalar hbefore (by simp; decide) (by simp)]
    simp only [List.cons_append, List.append_assoc, List.nil_append, readScalar,
      readText_of_spells h rest, Option.map_some]
  | @emptyArr cs h =>
    simp only [List.cons_append, List.append_assoc, List.nil_append]
    exact readValue_emptyArr hbefore (skipSpaces_append_cons h rfl rest) fuel
  | @arr items cs h =>
    simp only [List.length_cons, List.length_append, List.length_nil] at hfuel
    obtain ⟨c, tail, hcs, hc⟩ := exists_cons_of_itemsDenote h (']' :: rest)
    simp only [List.cons_append, List.append_assoc, List.nil_append]
    exact readValue_arr hbefore hcs hc (readItems_of_itemsDenote h fuel (by omega) rest)
  | @emptyObj cs h =>
    simp only [List.cons_append, List.append_assoc, List.nil_append]
    exact readValue_emptyObj hbefore (skipSpaces_append_cons h rfl rest) fuel
  | @obj members cs h =>
    simp only [List.length_cons, List.length_append, List.length_nil] at hfuel
    obtain ⟨c, tail, hcs, hc⟩ := exists_cons_of_membersDenote h ('\x7d' :: rest)
    simp only [List.cons_append, List.append_assoc, List.nil_append]
    exact readValue_obj hbefore hcs hc (readMembers_of_membersDenote h fuel (by omega) rest)

theorem readValue_of_isText {v : Json} {cs : List Char} (h : IsText v cs) (fuel : Nat)
    (hfuel : cs.length < fuel) {rest : List Char} (hrest : EndsValue rest) :
    ∃ after, AreSpaces after ∧ readValue fuel (cs ++ rest) = some (v, after ++ rest) := by
  cases h with
  | @mk _ before cs after hbefore h hafter =>
    simp only [List.length_append] at hfuel
    refine ⟨after, hafter, ?_⟩
    rw [List.append_assoc, List.append_assoc]
    exact readValue_of_denotes h fuel (by omega) hbefore (endsValue_spaces hafter hrest)

theorem readItems_of_itemsDenote {items : List Json} {cs : List Char} (h : ItemsDenote items cs)
    (fuel : Nat) (hfuel : cs.length + 1 < fuel) (rest : List Char) :
    readItems fuel (cs ++ ']' :: rest) = some (items, rest) := by
  obtain ⟨fuel, rfl⟩ : ∃ k, fuel = k + 1 := ⟨fuel - 1, by omega⟩
  cases h with
  | single h =>
    obtain ⟨after, hafter, hv⟩ :=
      readValue_of_isText h fuel (by omega) (endsValue_cons (c := ']') rfl rest)
    exact readItems_single hv (skipSpaces_append_cons hafter rfl rest)
  | @cons _ _ cs more h hitems =>
    simp only [List.length_append, List.length_cons] at hfuel
    obtain ⟨after, hafter, hv⟩ := readValue_of_isText h fuel (by omega)
      (endsValue_cons (c := ',') rfl (more ++ ']' :: rest))
    rw [List.append_assoc, List.cons_append]
    exact readItems_cons hv (skipSpaces_append_cons hafter rfl _)
      (readItems_of_itemsDenote hitems fuel (by omega) rest)

theorem readsMember_of_memberDenotes {m : String × Json} {cs : List Char}
    (h : MemberDenotes m cs) (fuel : Nat) (hfuel : cs.length < fuel) {rest : List Char}
    (hrest : EndsValue rest) :
    ∃ after, AreSpaces after ∧ ReadsMember fuel (cs ++ rest) m (after ++ rest) := by
  cases h with
  | @mk name v before key between cs hbefore hname hbetween h =>
    simp only [List.length_append, List.length_cons] at hfuel
    obtain ⟨after, hafter, hv⟩ := readValue_of_isText h fuel (by omega) hrest
    refine ⟨after, hafter, between ++ ':' :: (cs ++ rest), cs ++ rest, ?_, ?_, hv⟩
    · simp only [List.append_assoc, List.cons_append]
      rw [skipSpaces_append_cons hbefore rfl, readText_of_spells hname]
    · exact skipSpaces_append_cons hbetween rfl _

theorem readMembers_of_membersDenote {members : List (String × Json)} {cs : List Char}
    (h : MembersDenote members cs) (fuel : Nat) (hfuel : cs.length + 1 < fuel)
    (rest : List Char) :
    readMembers fuel (cs ++ '\x7d' :: rest) = some (members, rest) := by
  obtain ⟨fuel, rfl⟩ : ∃ k, fuel = k + 1 := ⟨fuel - 1, by omega⟩
  cases h with
  | single h =>
    obtain ⟨after, hafter, hm⟩ :=
      readsMember_of_memberDenotes h fuel (by omega) (endsValue_cons (c := '\x7d') rfl rest)
    exact readMembers_single hm (skipSpaces_append_cons hafter rfl rest)
  | @cons _ _ cs more h hmembers =>
    simp only [List.length_append, List.length_cons] at hfuel
    obtain ⟨after, hafter, hm⟩ := readsMember_of_memberDenotes h fuel (by omega)
      (endsValue_cons (c := ',') rfl (more ++ '\x7d' :: rest))
    rw [List.append_assoc, List.cons_append]
    exact readMembers_cons hm (skipSpaces_append_cons hafter rfl _)
      (readMembers_of_membersDenote hmembers fuel (by omega) rest)

end

/-- **A JSON text is read as the value that it denotes.** -/
theorem parse_of_isText {v : Json} {text : String} (h : IsText v text.toList) :
    parse text = some v := by
  have hend : EndsValue [] := nofun
  obtain ⟨after, hafter, hread⟩ := readValue_of_isText h _ (Nat.lt_succ_self _) hend
  rw [List.append_nil, List.append_nil] at hread
  have hnothing : skipSpaces after = [] := List.dropWhile_eq_nil_iff.mpr hafter
  simp [parse, hread, hnothing]

/-- So it denotes no other value. -/
theorem isText_unique {v w : Json} {cs : List Char} (hv : IsText v cs) (hw : IsText w cs) :
    v = w := by
  rw [← String.toList_ofList (l := cs)] at hv hw
  exact Option.some.inj ((parse_of_isText hv).symm.trans (parse_of_isText hw))

end Json
end DevMachines
