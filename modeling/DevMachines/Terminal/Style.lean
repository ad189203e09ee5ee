import DevMachines.Number.Notation
import DevMachines.Text.Small

/-!
# Names of styles

A tag in a text for the console names a style.  Two names are the same style when they set the same
attributes and colours, so names are brought into one spelling: attributes first, in a fixed order
and under their long names, then the colour, the colour behind, and the link.  A name that is no
style is its own spelling, in lower case and without blanks around it.
-/

namespace DevMachines.Terminal

/-- The attributes of a style in their order, with their names; the first is the long one. -/
def attributeNames : List (List String) := [
  ["bold", "b"], ["dim", "d"], ["italic", "i"], ["underline", "u"], ["blink"], ["blink2"],
  ["reverse", "r"], ["conceal", "c"], ["strike", "s"], ["underline2", "uu"], ["frame"],
  ["encircle"], ["overline", "o"]]

/-- The place of an attribute in their order. -/
def attributeIndex? (word : String) : Option Nat :=
  attributeNames.findIdx? fun names => names.contains word

/-- The colours with names of their own. -/
def colourNames : List String :=
  let basic := ["black", "red", "green", "yellow", "blue", "magenta", "cyan", "white"]
  "default" :: basic ++ basic.map ("bright_" ++ ·)

/-- The numbers between parentheses after a word. -/
def numbersAfter (word : String) (text : String) : Option (List Nat) :=
  if text.startsWith (word ++ "(") && text.endsWith ")" then
    let inner := (text.toList.drop (word.length + 1)).dropLast
    let parts := (String.ofList inner).splitOn ","
    parts.mapM fun part =>
      readDigits? 10 (part.toList.filter (· != ' '))
  else none

/-- Does a word name a colour?  Colours have names, numbers below 256, or three components. -/
def isColour (word : String) : Bool :=
  let cs := word.toList
  colourNames.contains word ||
    (cs.length == 7 && cs.head? == some '#' && cs.tail.all fun c => (hexValue? c).isSome) ||
    (match numbersAfter "color" word with
      | some [n] => n < 256
      | _ => false) ||
    (match numbersAfter "rgb" word with
      | some [r, g, b] => r < 256 && g < 256 && b < 256
      | _ => false)

/-- What a style sets. -/
structure StyleParts where
  attributes : List (Nat × Bool) := []
  colour : Option String := none
  background : Option String := none
  link : Option String := none

/-- Reads the words of a style. -/
def readStyle : StyleParts → List String → Option StyleParts
  | parts, [] => some parts
  | parts, word :: rest =>
      let lower := Text.smallLetters word
      let setAttribute (i : Nat) (value : Bool) : StyleParts :=
        { parts with attributes := (i, value) :: parts.attributes.filter (·.1 != i) }
      if lower = "on" then
        match rest with
        | colour :: rest =>
            let colour := Text.smallLetters colour
            if isColour colour then readStyle { parts with background := some colour } rest
            else none
        | [] => none
      else if lower = "not" then
        match rest with
        | name :: rest => (attributeIndex? name).bind fun i => readStyle (setAttribute i false) rest
        | [] => none
      else if lower = "link" then
        match rest with
        | target :: rest => readStyle { parts with link := some target } rest
        | [] => none
      else
        match attributeIndex? lower with
        | some i => readStyle (setAttribute i true) rest
        | none =>
            if isColour lower then readStyle { parts with colour := some lower } rest else none

/-- The words that a style is spelled with. -/
def StyleParts.words (parts : StyleParts) : List String :=
  let spell (i : Nat) (names : List String) : List String :=
    match parts.attributes.lookup i with
    | some true => names.take 1
    | some false => names.take 1 |>.map ("not " ++ ·)
    | none => []
  (attributeNames.zipIdx.flatMap fun (names, i) => spell i names) ++
    parts.colour.toList ++
    (parts.background.map fun c => ["on", c]).getD [] ++
    (parts.link.map fun l => ["link", l]).getD []

/-- The words of a text between blanks. -/
def wordsOf (isBlank : Char → Bool) (cs : List Char) : List (List Char) :=
  (cs.foldr (fun c words =>
    if isBlank c then [] :: words
    else match words with
      | word :: rest => (c :: word) :: rest
      | [] => [[c]]) [[]]).filter (!·.isEmpty)

end DevMachines.Terminal
