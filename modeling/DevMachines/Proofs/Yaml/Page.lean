import DevMachines.Proofs.Yaml.Scalars

/-!
# Written values

Between the characters of a page and the values it is written for stands the tree `Written`: scalars
as they are spelled, lists and mappings with a line for each item and entry, anchors and tags in
front of nodes, and aliases.  It fixes the characters (`Written.chars`) and the tokens
(`Written.tokens`), so what the writer does and what the lexer does can be said apart.

A collection is indented by what stands around it.  It may begin on the line of the indicator in front
of it, if nothing else has been written there; otherwise it begins on a line of its own, and then the
items of a list that is the value of an entry are not indented further than the entry.
-/

namespace DevMachines.Yaml

/-- An anchor or a tag in front of a node. -/
inductive Mark where
  | anchor (name : List Char)
  | tag (name : List Char)

namespace Mark

/-- The characters of a mark. -/
def chars : Mark → List Char
  | .anchor name => '&' :: name
  | .tag name => '!' :: '!' :: name

/-- The token of a mark. -/
def token : Mark → Token
  | .anchor name => .anchor (String.ofList name)
  | .tag name => .tag (some "!!") (String.ofList name)

/-- Can the name of a mark be read? -/
def IsReadable : Mark → Prop
  | .anchor name => name ≠ [] ∧ ∀ c ∈ name, isNameChar c = true
  | .tag name => Lexer.IsTagName name

end Mark

/-- The anchor and the tag of a node. -/
structure Marks where
  anchor : Option (List Char)
  tag : Option (List Char)

namespace Marks

/-- No marks. -/
def none : Marks := ⟨Option.none, Option.none⟩

/-- The marks in the order in which they are written. -/
def all (m : Marks) : List Mark := m.anchor.toList.map .anchor ++ m.tag.toList.map .tag

/-- The characters of the marks, each behind a blank. -/
def chars (m : Marks) : List Char := m.all.flatMap fun mark => ' ' :: mark.chars

/-- The tokens of the marks. -/
def tokens (m : Marks) : List Token := m.all.map Mark.token

end Marks

/-- A value as it is written. -/
inductive Written where
  | alias (name : List Char)
  | scalar (marks : Marks) (isPlain : Bool) (text spelled : List Char)
  | list (marks : Marks) (items : List Written)
  /-- The first part of an entry says whether the key stands in front of its colon, rather than behind
  a question mark. -/
  | map (marks : Marks) (entries : List (Bool × Written × Written))

/-- What a value stands behind: the hyphen of an item, a question mark or the colon on a line of its
own, or the colon behind a key. -/
inductive Place where
  | item
  | part
  | entry
  deriving DecidableEq

/-- May a collection begin on the same line? -/
def Place.isOpen (place : Place) (marks : Marks) : Bool := place != .entry && marks.all.isEmpty

/-- Do the items of a list stand at the indentation around it? -/
def Place.isIndentless (place : Place) (marks : Marks) : Bool :=
  place == .entry || place == .part && !marks.all.isEmpty

/-- The column of the items of a list. -/
def Place.itemColumn (place : Place) (marks : Marks) (indent : Nat) : Nat :=
  if place.isIndentless marks then indent else indent + 2

/-- The start of a line. -/
def newLine (column : Nat) : List Char := '\n' :: List.replicate column ' '

/-- What stands between an indicator, with its marks, and a collection. -/
def Place.lead (place : Place) (marks : Marks) (column : Nat) : List Char :=
  if place.isOpen marks then [' '] else newLine column

namespace Written

/-- The words of an alias or a scalar, and the tokens they are. -/
def words : Written → List (List Char × Token)
  | .alias name => [('*' :: name, .alias (String.ofList name))]
  | .scalar marks isPlain text spelled =>
      marks.all.map (fun mark => (mark.chars, mark.token)) ++
        [(spelled, .scalar (String.ofList text) isPlain)]
  | _ => []

/-- The characters of words, each behind a blank. -/
def lineChars (words : List (List Char × Token)) : List Char := words.flatMap fun w => ' ' :: w.1

mutual

/-- The characters of a value. -/
def chars (indent : Nat) (place : Place) : Written → List Char
  | .alias name => ' ' :: '*' :: name
  | .scalar marks _ _ spelled => marks.chars ++ ' ' :: spelled
  | .list marks items =>
      marks.chars ++
        if items.isEmpty then [' ', '[', ']']
        else
          itemChars (place.lead marks (place.itemColumn marks indent))
            (place.itemColumn marks indent) items
  | .map marks entries =>
      marks.chars ++
        if entries.isEmpty then [' ', '\x7b', '\x7d']
        else entryChars (place.lead marks (indent + 2)) (indent + 2) entries

/-- The characters of items at a column; `lead` comes before the first. -/
def itemChars (lead : List Char) (column : Nat) : List Written → List Char
  | [] => []
  | w :: rest => lead ++ '-' :: (w.chars column .item ++ itemChars (newLine column) column rest)

/-- The characters of entries at a column; `lead` comes before the first. -/
def entryChars (lead : List Char) (column : Nat) : List (Bool × Written × Written) → List Char
  | [] => []
  | (isSimple, k, v) :: rest =>
      lead ++
        ((if isSimple then (lineChars k.words).tail ++ ':' :: v.chars column .entry
          else '?' :: (k.chars column .part ++ (newLine column ++ ':' :: v.chars column .part))) ++
        entryChars (newLine column) column rest)

end

/-- The characters of one entry. -/
def entryLine (column : Nat) : Bool × Written × Written → List Char
  | (isSimple, k, v) =>
      if isSimple then (lineChars k.words).tail ++ ':' :: v.chars column .entry
      else '?' :: (k.chars column .part ++ (newLine column ++ ':' :: v.chars column .part))

theorem entryChars_cons (lead : List Char) (column : Nat) (e : Bool × Written × Written)
    (rest : List (Bool × Written × Written)) :
    entryChars lead column (e :: rest) =
      lead ++ (entryLine column e ++ entryChars (newLine column) column rest) := rfl

mutual

/-- The tokens of a value. -/
def tokens (place : Place) : Written → List Token
  | .alias name => [.alias (String.ofList name)]
  | .scalar marks isPlain text _ => marks.tokens ++ [.scalar (String.ofList text) isPlain]
  | .list marks items =>
      marks.tokens ++
        if items.isEmpty then [.flowSequenceStart, .flowSequenceEnd]
        else if place.isIndentless marks then itemTokens items
        else .blockSequenceStart :: (itemTokens items ++ [.blockEnd])
  | .map marks entries =>
      marks.tokens ++
        if entries.isEmpty then [.flowMappingStart, .flowMappingEnd]
        else .blockMappingStart :: (entryTokens entries ++ [.blockEnd])

/-- The tokens of items. -/
def itemTokens : List Written → List Token
  | [] => []
  | w :: rest => .blockEntry :: (w.tokens .item ++ itemTokens rest)

/-- The tokens of entries. -/
def entryTokens : List (Bool × Written × Written) → List Token
  | [] => []
  | (isSimple, k, v) :: rest =>
      .key :: (k.tokens .part ++ .value :: (v.tokens (if isSimple then .entry else .part) ++
        entryTokens rest))

end

/-! ## Written values that can be read -/

/-- Can a value stand in front of its colon?  It is a scalar or an alias, on one line and short. -/
structure IsSimpleKey (w : Written) : Prop where
  nonempty : w.words ≠ []
  columns : ∀ word ∈ w.words, ∀ c ∈ word.1, TakesColumn c
  isShort : (lineChars w.words).length ≤ 1025

mutual

/-- Is every scalar of a value spelled so that it can be read at its indentation, and every name? -/
def IsReadable (indent : Nat) (place : Place) : Written → Prop
  | .alias name => (Mark.anchor name).IsReadable
  | .scalar marks isPlain text spelled =>
      (∀ mark ∈ marks.all, mark.IsReadable) ∧ Spells (indent + 2) spelled text isPlain
  | .list marks items =>
      (∀ mark ∈ marks.all, mark.IsReadable) ∧ areReadable (place.itemColumn marks indent) items
  | .map marks entries =>
      (∀ mark ∈ marks.all, mark.IsReadable) ∧ areReadableEntries (indent + 2) entries

/-- Can items at a column be read? -/
def areReadable (column : Nat) : List Written → Prop
  | [] => True
  | w :: rest => w.IsReadable column .item ∧ areReadable column rest

/-- Can entries at a column be read? -/
def areReadableEntries (column : Nat) : List (Bool × Written × Written) → Prop
  | [] => True
  | (isSimple, k, v) :: rest =>
      k.IsReadable column .part ∧ (isSimple = true → k.IsSimpleKey) ∧
        v.IsReadable column (if isSimple then .entry else .part) ∧ areReadableEntries column rest

end

end Written
end DevMachines.Yaml
