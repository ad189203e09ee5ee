import DevMachines.Yaml.Ink
import DevMachines.Value.Display
import DevMachines.Text.Base64

/-!
# Writing a value as YAML

Collections are written as blocks, one item or entry to a line, indented by two; an empty one is a
pair of brackets.  The items of a list that is the value of an entry stand at the indentation of the
entry.  A key is written before its colon if it fits on a line, and after a question mark otherwise.

A labelled value that occurs several times is written once, under an anchor, and referred to by an
alias afterwards.  Anchors are numbered in the order in which a second occurrence is met.
-/

namespace DevMachines.Yaml

/-- The tag and the text of a value that is a scalar, and whether it is written as lines. -/
def scalarForm : Value → Option (String × String × Bool)
  | .null => some (Tag.null, "null", false)
  | .bool b => some (Tag.bool, if b then "true" else "false", false)
  | .int n => some (Tag.int, intText n, false)
  | .float x => some (Tag.float, floatForm x, false)
  | .text s => some (Tag.text, s, false)
  | .octets bs => some (Tag.binary, String.ofList (Text.Base64.lines bs), true)
  | .date _ d => some (Tag.timestamp, d.isoText, false)
  | .moment _ m => some (Tag.timestamp, m.isoText " ", false)
  | _ => none
where
  /-- Reading needs a point in a double, so one is added before an exponent. -/
  floatForm : Binary64 → String
    | .nan => ".nan"
    | .infinite negative => if negative then "-.inf" else ".inf"
    | x =>
        let cs := x.toText.toList
        if cs.contains 'e' && !cs.contains '.' then
          String.ofList (cs.flatMap fun c => if c == 'e' then ['.', '0', 'e'] else [c])
        else String.ofList cs

/-- The label of a value that other places may refer to. -/
def labelOf : Value → Option Label
  | .date l _ | .moment l _ | .list l _ | .pair l _ _ | .set l _ | .map l _ => l
  | .again l => some l
  | _ => none

/-! ## Anchors -/

/-- The labels that have been met, and those met again, the latest first. -/
structure Occurrences where
  met : List Label
  again : List Label

/-- Notes an occurrence of a label, and says whether it is the first. -/
def Occurrences.note (label : Option Label) (o : Occurrences) : Bool × Occurrences :=
  match label with
  | none => (true, o)
  | some l =>
      if o.met.contains l then
        (false, if o.again.contains l then o else { o with again := l :: o.again })
      else (true, { o with met := l :: o.met })

mutual

/-- Notes the labels of a value; what has been met is not entered again. -/
def noteLabels : Value → Occurrences → Occurrences
  | .list l items, o =>
      let (isFirst, o) := o.note l
      if isFirst then noteItems items o else o
  | .pair l a b, o =>
      let (isFirst, o) := o.note l
      if isFirst then noteLabels b (noteLabels a o) else o
  | .set l elements, o =>
      let (isFirst, o) := o.note l
      if isFirst then noteItems elements o else o
  | .map l entries, o =>
      let (isFirst, o) := o.note l
      if isFirst then noteEntries entries o else o
  | v, o => (o.note (labelOf v)).2

/-- Notes the labels of items. -/
def noteItems : List Value → Occurrences → Occurrences
  | [], o => o
  | v :: rest, o => noteItems rest (noteLabels v o)

/-- Notes the labels of entries. -/
def noteEntries : List (Value × Value) → Occurrences → Occurrences
  | [], o => o
  | (k, v) :: rest, o => noteEntries rest (noteLabels v (noteLabels k o))

end

/-- The labels that get an anchor, in the order of their numbers. -/
def anchoredLabels (v : Value) : List Label := (noteLabels v ⟨[], []⟩).again.reverse

/-- The name of the anchor of a label. -/
def anchorOf (anchored : List Label) (label : Option Label) : Option String := do
  let l ← label
  if anchored.contains l then some ("id" ++ zeroPadded 3 (anchored.idxOf l + 1)) else none

/-! ## Layout -/

/-- Where a value stands. -/
inductive Setting where
  | root
  | item
  | entry
  deriving DecidableEq

/-- The short form of a standard tag. -/
def shortTag (tag : String) : List Char := '!' :: '!' :: tag.toList.drop (Tag.standard "").length

/-- A scalar with its tag where that must be written. -/
def scalarInk (indent : Nat) (simpleKey : Bool) (tag text : String) (asLines : Bool) : Ink :=
  let style := styleOf tag text asLines simpleKey
  let cs := text.toList
  let body := match style with
    | .plain => Ink.plain indent (!simpleKey) cs
    | .singleQuoted => Ink.singleQuoted indent (!simpleKey) cs
    | .doubleQuoted => Ink.doubleQuoted indent (!simpleKey) cs
    | .literal => Ink.literal indent cs
  if writesTag tag style then Ink.mark (shortTag tag) true ++ body else body

/-- Writes a value under its anchor, or an alias if it has been written. -/
def anchoredInk (anchored : List Label) (label : Option Label) (body : Ink) : Ink := fun pen =>
  match label, anchorOf anchored label with
  | some l, some name =>
      if pen.written.contains l then Ink.mark ('*' :: name.toList) true pen
      else
        (Ink.mark ('&' :: name.toList) true ++ body)
          { pen with written := l :: pen.written }
  | _, _ => body pen

/-- Can a key be written in front of its colon?  It must be short, on one line, and not empty. -/
def isSimpleKey (anchored : List Label) (pen : Pen) (key : Value) : Bool :=
  let anchor := anchorOf anchored (labelOf key)
  let anchorLength := (anchor.map (·.length)).getD 0
  let isAlias := anchor.isSome && (labelOf key).any pen.written.contains
  if isAlias then anchorLength < 128
  else
    match scalarForm key with
    | some (tag, text, _) =>
        anchorLength + (shortTag tag).length + text.length < 128 && !text.isEmpty &&
          !text.toList.any isWrittenBreak
    | none => false

/-- A tag other than the one that a collection implies. -/
def tagInk (tag : Option String) : Ink :=
  match tag with
  | some tag => Ink.mark (shortTag tag) true
  | none => Ink.none

/-- An empty collection. -/
def emptyInk (opening closing : Char) : Ink :=
  Ink.spacedMark [opening] true ++ Ink.mark [closing] false

/-- The indentation of the entries of a mapping. -/
def innerIndent (indent : Nat) (place : Setting) : Nat := if place = .root then 0 else indent + 2

/-- The indentation of the items of a list: as the value of an entry it needs none of its own, unless
it begins on the line of the entry's indicator. -/
def itemIndent (indent : Nat) (place : Setting) (pen : Pen) : Nat :=
  if place = .entry && !pen.inIndentation then indent else innerIndent indent place

/-- One item: a hyphen and the value. -/
def itemInk (indent : Nat) (value : Ink) : Ink :=
  Ink.startLine indent ++ Ink.openingMark ['-'] ++ value

/-- One entry.  The key comes in two forms, in front of its colon and after a question mark. -/
def entryInk (anchored : List Label) (indent : Nat) (key : Value) (simple complex value : Ink) : Ink :=
  Ink.startLine indent ++ Ink.choose fun pen =>
    if isSimpleKey anchored pen key then simple ++ Ink.mark [':'] false ++ value
    else
      Ink.openingMark ['?'] ++ complex ++ Ink.startLine indent ++
        Ink.openingMark [':'] ++ value

mutual

/-- Writes a value.  `indent` is the indentation of the collection around it. -/
def valueInk (anchored : List Label) (indent : Nat) (place : Setting) (simpleKey : Bool) :
    Value → Ink
  | .list label items => anchoredInk anchored label <|
      if items.isEmpty then emptyInk '[' ']'
      else Ink.choose fun pen => itemsInk anchored (itemIndent indent place pen) items
  | .pair label a b => anchoredInk anchored label <|
      tagInk (some Tag.pair) ++ Ink.choose fun pen =>
        itemInk (itemIndent indent place pen)
            (valueInk anchored (itemIndent indent place pen) .item false a) ++
          itemInk (itemIndent indent place pen)
            (valueInk anchored (itemIndent indent place pen) .item false b)
  | .set label elements => anchoredInk anchored label <|
      tagInk (some Tag.set) ++
        if elements.isEmpty then emptyInk '\x7b' '\x7d'
        else elementsInk anchored (innerIndent indent place) elements
  | .map label entries => anchoredInk anchored label <|
      if entries.isEmpty then emptyInk '\x7b' '\x7d'
      else entriesInk anchored (innerIndent indent place) entries
  | .again label => anchoredInk anchored (some label) Ink.none
  | v => anchoredInk anchored (labelOf v) <|
      match scalarForm v with
      | some (tag, text, asLines) => scalarInk (indent + 2) simpleKey tag text asLines
      | none => Ink.none

/-- Writes items, each on a line. -/
def itemsInk (anchored : List Label) (indent : Nat) : List Value → Ink
  | [] => Ink.none
  | v :: rest =>
      itemInk indent (valueInk anchored indent .item false v) ++
        itemsInk anchored indent rest

/-- Writes entries, each on a line. -/
def entriesInk (anchored : List Label) (indent : Nat) : List (Value × Value) → Ink
  | [] => Ink.none
  | (k, v) :: rest =>
      entryInk anchored indent k (valueInk anchored indent .entry true k)
          (valueInk anchored indent .entry false k) (valueInk anchored indent .entry false v) ++
        entriesInk anchored indent rest

/-- Writes the elements of a set, as keys without values. -/
def elementsInk (anchored : List Label) (indent : Nat) : List Value → Ink
  | [] => Ink.none
  | k :: rest =>
      entryInk anchored indent k (valueInk anchored indent .entry true k)
          (valueInk anchored indent .entry false k)
          (scalarInk (indent + 2) false Tag.null "null" false) ++
        elementsInk anchored indent rest

end

/-- The YAML text of a mapping. -/
def render (entries : List (Value × Value)) : String :=
  let document := Value.map none entries
  let ink := valueInk (anchoredLabels document) 0 .root false document ++ Ink.startLine 0
  String.ofList (ink Pen.start).1

end DevMachines.Yaml
