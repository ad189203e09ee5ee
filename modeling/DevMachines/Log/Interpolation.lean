import DevMachines.Value.Display
import DevMachines.Value.Equality

/-!
# Putting arguments into the name of an event

The name of an event may have places for arguments, each a percent sign with a letter that says how
the argument is written, and between them an optional name, flags, a width and a precision.  The
arguments are a row, taken one by one, or a single map, from which named places take theirs.  Every
argument of a row must be used, and every place must get one.
-/

namespace DevMachines.Log

/-- Why arguments do not fit a text. -/
inductive InterpolationFault where
  | tooFew
  | tooMany
  | needsMap
  | incomplete
  | incompleteName
  | unknownLetter (letter : Char) (index : Nat)
  | notReal (letter : Char) (kind : String)
  | notInteger (letter : Char) (kind : String)
  | notFloat (kind : String)
  | notCharacter
  | noSuchCharacter
  | widthNotInteger
  | missingName (name : String)
  | nanToInteger
  | infinityToInteger
  | integerToInfinity
  | tooManyDigits
  deriving DecidableEq, Repr

namespace InterpolationFault

/-- The class of a fault, as reports name it. -/
def kindName : InterpolationFault → String
  | .incomplete | .incompleteName | .unknownLetter .. | .nanToInteger | .tooManyDigits => "ValueError"
  | .missingName _ => "KeyError"
  | .infinityToInteger | .integerToInfinity | .noSuchCharacter => "OverflowError"
  | _ => "TypeError"

/-- The wording of a fault. -/
def message : InterpolationFault → String
  | .tooFew => "not enough arguments for format string"
  | .tooMany => "not all arguments converted during string formatting"
  | .needsMap => "format requires a mapping"
  | .incomplete => "incomplete format"
  | .incompleteName => "incomplete format key"
  | .unknownLetter letter index =>
      s!"unsupported format character '{letter}' (0x" ++
        String.ofList (Nat.toDigits 16 letter.toNat) ++ s!") at index {index}"
  | .notReal letter kind => s!"%{letter} format: a real number is required, not {kind}"
  | .notInteger letter kind => s!"%{letter} format: an integer is required, not {kind}"
  | .notFloat kind => s!"must be real number, not {kind}"
  | .notCharacter => "%c requires int or char"
  | .noSuchCharacter => "%c arg not in range(0x110000)"
  | .widthNotInteger => "* wants int"
  | .missingName name => Text.quoted name
  | .nanToInteger => "cannot convert float NaN to integer"
  | .infinityToInteger => "cannot convert float infinity to integer"
  | .integerToInfinity => "int too large to convert to float"
  | .tooManyDigits => tooLongReport

end InterpolationFault

/-- What is left of the arguments. -/
inductive Arguments where
  | row (rest : List Value)
  | named (map : Value) (used : Bool)

/-- The next argument of a row; a map counts as one. -/
def Arguments.next : Arguments → Except InterpolationFault (Value × Arguments)
  | .row (v :: rest) => .ok (v, .row rest)
  | .row [] => .error .tooFew
  | .named map false => .ok (map, .named map true)
  | .named _ true => .error .tooFew

/-- The argument with a name. -/
def Arguments.byName (name : String) : Arguments → Except InterpolationFault Value
  | .named (.map _ entries) _ =>
      match Value.lookup? (.text name) entries with
      | some v => .ok v
      | none => .error (.missingName name)
  | _ => .error .needsMap

/-- A place for an argument. -/
structure PlaceFormat where
  alternate : Bool := false
  zeroFill : Bool := false
  leftAligned : Bool := false
  blankSign : Bool := false
  plusSign : Bool := false
  width : Nat := 0
  precision : Option Nat := none

/-- Fills a text up to the width of its place. -/
def PlaceFormat.fill (f : PlaceFormat) (cs : List Char) : List Char :=
  let padding := List.replicate (f.width - cs.length) ' '
  if f.leftAligned then cs ++ padding else padding ++ cs

/-- Puts sign, mark and digits together, with zeros between them if the place asks for it. -/
def PlaceFormat.number (f : PlaceFormat) (negative : Bool) (start digits : List Char) : List Char :=
  let sign :=
    if negative then ['-'] else if f.plusSign then ['+'] else if f.blankSign then [' '] else []
  let front := sign ++ start
  if f.zeroFill && !f.leftAligned then
    front ++ List.replicate (f.width - front.length - digits.length) '0' ++ digits
  else f.fill (front ++ digits)

/-- Leading zeros up to the precision. -/
def PlaceFormat.zeros (f : PlaceFormat) (digits : List Char) : List Char :=
  padLeft (f.precision.getD 0) '0' digits

/-- The integer of an argument, cut off at the point. -/
def wholeOf (letter : Char) (v : Value) : Except InterpolationFault Int :=
  match v with
  | .int n => .ok n
  | .bool b => .ok (if b then 1 else 0)
  | .float .nan => .error .nanToInteger
  | .float (.infinite _) => .error .infinityToInteger
  | .float (.finite negative units) =>
      .ok (Binary64.signedUnits negative (units / Binary64.unitsPerOne))
  | v => .error (.notReal letter v.kindName)

/-- The digits of a magnitude with a number of decimal places, ties to even. -/
def fixedDigits (units places : Nat) : List Char :=
  let n := Binary64.scaledPlaces units places
  let digits := padLeft (places + 1) '0' (Nat.toDigits 10 n)
  let whole := digits.length - places
  if places = 0 then digits else digits.take whole ++ '.' :: digits.drop whole

/-- A magnitude rounded to `count` significant digits: the digits, and the power of ten of the first
one. -/
def significantDigits (units count : Nat) : List Char × Int :=
  if units = 0 then (List.replicate count '0', 0)
  else
    let point := Binary64.decimalPoint units
    let shift : Int := count - point
    let n :=
      if shift < 0 then nearestEven units (Binary64.unitsPerOne * Nat.pow 10 shift.natAbs)
      else nearestEven (units * Nat.pow 10 shift.toNat) Binary64.unitsPerOne
    if n = Nat.pow 10 count then ((Nat.toDigits 10 n).take count, point)
    else (Nat.toDigits 10 n, point - 1)

/-- Digits with a point after the first, and an exponent of at least two digits. -/
def scientific (digits : List Char) (exponent : Int) (letter : Char) : List Char :=
  let mantissa := match digits with
    | c :: c' :: rest => c :: '.' :: c' :: rest
    | cs => cs
  mantissa ++ letter :: (if exponent < 0 then '-' else '+') ::
    padLeft 2 '0' (Nat.toDigits 10 exponent.natAbs)

/-- Leaves out zeros at the end of a fraction. -/
def dropFractionZeros (cs : List Char) : List Char :=
  if cs.contains '.' then
    let trimmed := (cs.reverse.dropWhile (· == '0')).reverse
    if trimmed.getLast? == some '.' then trimmed.dropLast else trimmed
  else cs

/-- The digits of a magnitude in the notation that is shorter. -/
def generalDigits (f : PlaceFormat) (units : Nat) (letter : Char) : List Char :=
  let count := max (f.precision.getD 6) 1
  let (digits, exponent) := significantDigits units count
  let clean (cs : List Char) : List Char := if f.alternate then cs else dropFractionZeros cs
  if -4 ≤ exponent ∧ exponent < count then clean (fixedDigits units (count - 1 - exponent).toNat)
  else
    let mantissa := clean (match digits with
      | c :: c' :: rest => c :: '.' :: c' :: rest
      | cs => cs)
    mantissa ++ letter :: (if exponent < 0 then '-' else '+') ::
      padLeft 2 '0' (Nat.toDigits 10 exponent.natAbs)

/-- Writes a double. -/
def formatFloat (f : PlaceFormat) (letter : Char) (x : Binary64) : List Char :=
  let named (name : String) (negative : Bool) : List Char :=
    let name := name.toList.map fun c => if letter.isUpper then c.toUpper else c
    ({ f with zeroFill := false }).number negative [] name
  match x with
  | .nan => named "nan" false
  | .infinite negative => named "inf" negative
  | .finite negative units =>
      let places := f.precision.getD 6
      let digits :=
        if letter.toLower = 'f' then fixedDigits units places
        else if letter.toLower = 'e' then
          let (digits, exponent) := significantDigits units (places + 1)
          scientific digits exponent letter
        else generalDigits f units (if letter = 'G' then 'E' else 'e')
      f.number negative [] digits

/-- Escapes every character outside ASCII. -/
def asciiOnly (text : String) : List Char :=
  text.toList.flatMap fun c => if c.toNat < 0x80 then [c] else Text.hexEscape c.toNat

/-- Writes an argument in its place; `index` is where the letter stands. -/
def formatArgument (f : PlaceFormat) (letter : Char) (index : Nat) (v : Value) :
    Except InterpolationFault (List Char) :=
  let asText (cs : List Char) : Except InterpolationFault (List Char) :=
    if v.holdsLongInt then .error .tooManyDigits
    else .ok (f.fill (match f.precision with
      | some n => cs.take n
      | none => cs))
  let based (base : Nat) (mark : List Char) : Except InterpolationFault (List Char) :=
    match v with
    | .int _ | .bool _ => do
        let n ← wholeOf letter v
        let digits := f.zeros (Nat.toDigits base n.natAbs)
        let capital := letter = 'X'
        let digits := if capital then digits.map Char.toUpper else digits
        let mark := if capital then mark.map Char.toUpper else mark
        pure (f.number (n < 0) (if f.alternate then mark else []) digits)
    | v => .error (.notInteger letter v.kindName)
  if letter = 's' then asText v.plain.toList
  else if letter = 'r' then asText v.display.toList
  else if letter = 'a' then asText (asciiOnly v.display)
  else if letter = 'd' ∨ letter = 'i' ∨ letter = 'u' then do
    let n ← wholeOf letter v
    if isTooLong n then throw .tooManyDigits
    pure (f.number (n < 0) [] (f.zeros (Nat.toDigits 10 n.natAbs)))
  else if letter = 'x' ∨ letter = 'X' then based 16 ['0', 'x']
  else if letter = 'o' then based 8 ['0', 'o']
  else if letter = 'c' then
    match v with
    | .text s => if s.length = 1 then .ok (f.fill s.toList) else .error .notCharacter
    | .int n =>
        if 0 ≤ n ∧ n < 0x110000 then .ok (f.fill [Char.ofNat n.toNat])
        else .error .noSuchCharacter
    | .bool b => .ok (f.fill [Char.ofNat (if b then 1 else 0)])
    | _ => .error .notCharacter
  else if "eEfFgG".toList.contains letter then
    match v with
    | .float x => .ok (formatFloat f letter x)
    | .int n =>
        match Binary64.ofInt? n with
        | some x => .ok (formatFloat f letter x)
        | none => .error .integerToInfinity
    | .bool b => .ok (formatFloat f letter (if b then (Binary64.ofInt? 1).getD .zero else .zero))
    | v => .error (.notFloat v.kindName)
  else .error (.unknownLetter letter index)

/-- Reads the flags of a place. -/
def readFlags : PlaceFormat → List Char → PlaceFormat × List Char
  | f, '#' :: rest => readFlags { f with alternate := true } rest
  | f, '0' :: rest => readFlags { f with zeroFill := true } rest
  | f, '-' :: rest => readFlags { f with leftAligned := true } rest
  | f, ' ' :: rest => readFlags { f with blankSign := true } rest
  | f, '+' :: rest => readFlags { f with plusSign := true } rest
  | f, rest => (f, rest)

/-- Reads a width or a precision: digits, or a star that takes an argument. -/
def readSize (args : Arguments) (cs : List Char) :
    Except InterpolationFault (Option Int × Arguments × List Char) :=
  match cs with
  | '*' :: rest => do
      let (v, args) ← args.next
      match v with
      | .int n => pure (some n, args, rest)
      | .bool b => pure (some (if b then 1 else 0), args, rest)
      | _ => throw .widthNotInteger
  | cs =>
      let digits := cs.takeWhile fun c => (digitValue? c).isSome
      match readDigits? 10 digits with
      | some n => .ok (some n, args, cs.drop digits.length)
      | none => .ok (none, args, cs)

/-- Reads the name of a place, up to the parenthesis that closes it. -/
def readPlaceName : Nat → List Char → Option (List Char × List Char)
  | _, [] => none
  | depth, c :: rest =>
      if c = ')' then
        match depth with
        | 0 => some ([], rest)
        | depth + 1 => (readPlaceName depth rest).map fun (name, rest) => (c :: name, rest)
      else
        (readPlaceName (if c = '(' then depth + 1 else depth) rest).map
          fun (name, rest) => (c :: name, rest)

/-- Fills the place after a percent sign; `total` is the length of the whole text. -/
def fillPlace (total : Nat) (args : Arguments) (cs : List Char) :
    Except InterpolationFault (List Char × Arguments × List Char) := do
  let (name, cs) ← match cs with
    | '(' :: rest =>
        match args, readPlaceName 0 rest with
        | .row _, _ => throw .needsMap
        | _, some (name, rest) => pure (some (String.ofList name), rest)
        | _, none => throw .incompleteName
    | cs => pure (none, cs)
  let (f, cs) := readFlags {} cs
  let (width, args, cs) ← readSize args cs
  let f := match width with
    | some n => { f with width := n.natAbs, leftAligned := f.leftAligned || n < 0 }
    | none => f
  let (f, args, cs) ← match cs with
    | '.' :: rest => do
        let (precision, args, rest) ← readSize args rest
        pure ({ f with precision := some (precision.getD 0).toNat }, args, rest)
    | cs => pure (f, args, cs)
  let cs := match cs with
    | c :: rest => if c = 'h' ∨ c = 'l' ∨ c = 'L' then rest else c :: rest
    | [] => []
  match cs with
  | [] => throw .incomplete
  | '%' :: rest => pure (['%'], args, rest)
  | letter :: rest => do
      let (v, args) ← match name with
        | some name => do pure (← args.byName name, args)
        | none => args.next
      pure (← formatArgument f letter (total - cs.length) v, args, rest)

/-- Fills the places of a text one after another. -/
def fillPlaces (total : Nat) :
    Nat → Arguments → List Char → Except InterpolationFault (List Char × Arguments)
  | 0, args, cs => .ok (cs, args)
  | _ + 1, args, [] => .ok ([], args)
  | fuel + 1, args, c :: rest =>
      if c = '%' then do
        let (chars, args, rest) ← fillPlace total args rest
        let (more, args) ← fillPlaces total fuel args rest
        pure (chars ++ more, args)
      else do
        let (more, args) ← fillPlaces total fuel args rest
        pure (c :: more, args)

/-- Puts arguments into a text.  Without arguments the text stays as it is. -/
def interpolate (text : String) (args : List Value) : Except InterpolationFault String := do
  let cs := text.toList
  let start := match args with
    | [.map l (entry :: entries)] => Arguments.named (.map l (entry :: entries)) false
    | args => .row args
  if args.isEmpty then pure text
  else
    let (filled, left) ← fillPlaces cs.length (cs.length + 1) start cs
    match left with
    | .row (_ :: _) => throw .tooMany
    | _ => pure (String.ofList filled)

end DevMachines.Log
