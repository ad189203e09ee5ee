import DevMachines.Yaml.Node
import DevMachines.Yaml.Token.Lexer

/-!
# From tokens to a document

The grammar of documents, read by recursive descent: each function reads one kind of node from the
front of the tokens and leaves the rest.  Every call reads at least one token before it calls
another of its kind, so the number of tokens bounds the depth.

A text holds at most one document.  An anchor is known from the place where it stands, so an alias
may stand inside its own node; an anchor that is set twice, or an alias without an anchor, is a
fault.
-/

namespace DevMachines.Yaml

/-- What a reader of nodes has in hand. -/
structure NodeReader where
  tokens : List Token
  /-- The labels of the anchors that have been set. -/
  anchors : List (String × Nat)
  /-- The label of the next node. -/
  nextLabel : Nat

/-- Where a node stands, which decides the collections that may start there. -/
inductive NodePlace where
  | inFlow
  | inBlock
  /-- The value or key of a block mapping, where the hyphens of a list need no indentation. -/
  | inEntry
  deriving DecidableEq

/-- The handles of tags with what they stand for. -/
abbrev TagHandles := List (String × String)

/-- The handles that every document has unless it sets them itself. -/
def standardHandles : TagHandles := [("!", "!"), ("!!", "tag:yaml.org,2002:")]

namespace NodeReader

/-- What a reader returns. -/
abbrev Outcome (α : Type) : Type := Except ReadFault (α × NodeReader)

/-- The token in front.  A fault in front is the outcome. -/
def front (r : NodeReader) : Except ReadFault Token :=
  match r.tokens with
  | [] => malformed
  | .fault f :: _ => .error f
  | t :: _ => .ok t

/-- Leaves the front token behind. -/
def advance (r : NodeReader) : NodeReader := { r with tokens := r.tokens.tail }

/-- A new label. -/
def fresh (r : NodeReader) : Nat × NodeReader :=
  (r.nextLabel, { r with nextLabel := r.nextLabel + 1 })

/-- The node of an entry or item that is left out. -/
def emptyNode (r : NodeReader) : Node × NodeReader :=
  let (label, r) := r.fresh
  (.scalar label Tag.null "", r)

/-- The anchor and the tag in front of a node, which come in either order. -/
def properties (r : NodeReader) :
    Except ReadFault ((Option String × Option (Option String × String)) × NodeReader) := do
  match ← r.front with
  | .anchor name =>
      let r := r.advance
      match ← r.front with
      | .tag handle suffix => pure ((some name, some (handle, suffix)), r.advance)
      | _ => pure ((some name, none), r)
  | .tag handle suffix =>
      let r := r.advance
      match ← r.front with
      | .anchor name => pure ((some name, some (handle, suffix)), r.advance)
      | _ => pure ((none, some (handle, suffix)), r)
  | _ => pure ((none, none), r)

/-- The tag that a handle and a suffix make up. -/
def fullTag (handles : TagHandles) :
    Option (Option String × String) → Except ReadFault (Option String)
  | none => .ok none
  | some (none, suffix) => .ok (some suffix)
  | some (some handle, suffix) =>
      match handles.lookup handle with
      | some start => .ok (some (start ++ suffix))
      | none => malformed

/-- Sets an anchor to a label; it must not have been set before. -/
def setAnchor (anchor : Option String) (label : Nat) (r : NodeReader) :
    Except ReadFault NodeReader :=
  match anchor with
  | none => .ok r
  | some name =>
      if (r.anchors.lookup name).isSome then malformed
      else .ok { r with anchors := (name, label) :: r.anchors }

/-- The tag of a scalar.  A lone exclamation mark asks for the tag that the text implies, as if the
scalar were plain. -/
def scalarTag (tag : Option String) (text : String) (isPlain : Bool) : String :=
  match tag with
  | none => if isPlain then impliedTag text else Tag.text
  | some "!" => impliedTag text
  | some tag => tag

/-- The tag of a collection. -/
def collectionTag (tag : Option String) (standard : String) : String :=
  match tag with
  | none => standard
  | some "!" => standard
  | some tag => tag

/-- May an item or an entry be left out before this token, in a block? -/
def endsBlockItem : Token → Bool
  | .blockEntry | .blockEnd => true
  | _ => false

/-- May a key or a value be left out before this token, in a block? -/
def endsBlockPart : Token → Bool
  | .key | .value | .blockEnd => true
  | _ => false

mutual

/-- Reads a node. -/
def node (handles : TagHandles) (place : NodePlace) : Nat → NodeReader → Except ReadFault (Node × NodeReader)
  | 0, _ => malformed
  | fuel + 1, r => do
      if let .alias name := ← r.front then
        match r.anchors.lookup name with
        | some label => pure (.alias label, r.advance)
        | none => malformed
      else
        let ((anchor, written), r) ← r.properties
        let tag ← fullTag handles written
        let (label, r) := r.fresh
        let front ← r.front
        let r ← r.setAnchor anchor label
        match front, place with
        | .blockEntry, .inEntry =>
            let (items, r) ← indentlessItems handles fuel r
            pure (.sequence label (collectionTag tag Tag.sequence) items, r)
        | .scalar text isPlain, _ => pure (.scalar label (scalarTag tag text isPlain) text, r.advance)
        | .flowSequenceStart, _ =>
            let (items, r) ← flowItems handles true fuel r.advance
            pure (.sequence label (collectionTag tag Tag.sequence) items, r)
        | .flowMappingStart, _ =>
            let (entries, r) ← flowEntries handles true fuel r.advance
            pure (.mapping label (collectionTag tag Tag.mapping) entries, r)
        | .blockSequenceStart, .inBlock | .blockSequenceStart, .inEntry =>
            let (items, r) ← blockItems handles fuel r.advance
            pure (.sequence label (collectionTag tag Tag.sequence) items, r)
        | .blockMappingStart, .inBlock | .blockMappingStart, .inEntry =>
            let (entries, r) ← blockEntries handles fuel r.advance
            pure (.mapping label (collectionTag tag Tag.mapping) entries, r)
        | _, _ =>
            if anchor.isSome || tag.isSome then
              pure (.scalar label (scalarTag tag "" true) "", r)
            else malformed

/-- Reads the items of an indented list, up to its end. -/
def blockItems (handles : TagHandles) : Nat → NodeReader → Except ReadFault (List Node × NodeReader)
  | 0, _ => malformed
  | fuel + 1, r => do
      match ← r.front with
      | .blockEntry =>
          let r := r.advance
          let (item, r) ←
            if endsBlockItem (← r.front) then pure r.emptyNode else node handles .inBlock fuel r
          let (more, r) ← blockItems handles fuel r
          pure (item :: more, r)
      | .blockEnd => pure ([], r.advance)
      | _ => malformed

/-- Reads the items of a list that stands at the indentation of the mapping around it. -/
def indentlessItems (handles : TagHandles) :
    Nat → NodeReader → Except ReadFault (List Node × NodeReader)
  | 0, _ => malformed
  | fuel + 1, r => do
      match ← r.front with
      | .blockEntry =>
          let r := r.advance
          let front ← r.front
          let (item, r) ←
            if endsBlockItem front || endsBlockPart front then pure r.emptyNode
            else node handles .inBlock fuel r
          let (more, r) ← indentlessItems handles fuel r
          pure (item :: more, r)
      | _ => pure ([], r)

/-- Reads the entries of a block mapping, up to its end. -/
def blockEntries (handles : TagHandles) :
    Nat → NodeReader → Except ReadFault (List (Node × Node) × NodeReader)
  | 0, _ => malformed
  | fuel + 1, r => do
      match ← r.front with
      | .blockEnd => pure ([], r.advance)
      | front =>
          let (key, r) ←
            if front = .key then
              let r := r.advance
              if endsBlockPart (← r.front) then pure r.emptyNode
              else node handles .inEntry fuel r
            else malformed
          let (value, r) ← blockValue handles fuel r
          let (more, r) ← blockEntries handles fuel r
          pure ((key, value) :: more, r)

/-- Reads the value of an entry of a block mapping, which may be left out. -/
def blockValue (handles : TagHandles) : Nat → NodeReader → Except ReadFault (Node × NodeReader)
  | 0, _ => malformed
  | fuel + 1, r => do
      match ← r.front with
      | .value =>
          let r := r.advance
          if endsBlockPart (← r.front) then pure r.emptyNode else node handles .inEntry fuel r
      | _ => pure r.emptyNode

/-- Reads the items of a bracketed list; a key in it makes a mapping of one entry. -/
def flowItems (handles : TagHandles) (isFirst : Bool) :
    Nat → NodeReader → Except ReadFault (List Node × NodeReader)
  | 0, _ => malformed
  | fuel + 1, r => do
      let front ← r.front
      if front = .flowSequenceEnd then pure ([], r.advance)
      else
        let r ←
          if isFirst then pure r
          else if front = .flowEntry then pure r.advance else malformed
        match ← r.front with
        | .key =>
            let (label, r) := r.advance.fresh
            let front ← r.front
            let (key, r) ←
              if front = .value ∨ front = .flowEntry ∨ front = .flowSequenceEnd then
                pure r.emptyNode
              else node handles .inFlow fuel r
            let (value, r) ← flowValue handles .flowSequenceEnd fuel r
            let (more, r) ← flowItems handles false fuel r
            pure (.mapping label Tag.mapping [(key, value)] :: more, r)
        | .flowSequenceEnd => pure ([], r.advance)
        | _ =>
            let (item, r) ← node handles .inFlow fuel r
            let (more, r) ← flowItems handles false fuel r
            pure (item :: more, r)

/-- Reads the entries of a bracketed mapping; an item without a key mark is a key without a
value. -/
def flowEntries (handles : TagHandles) (isFirst : Bool) :
    Nat → NodeReader → Except ReadFault (List (Node × Node) × NodeReader)
  | 0, _ => malformed
  | fuel + 1, r => do
      let front ← r.front
      if front = .flowMappingEnd then pure ([], r.advance)
      else
        let r ←
          if isFirst then pure r
          else if front = .flowEntry then pure r.advance else malformed
        match ← r.front with
        | .key =>
            let r := r.advance
            let front ← r.front
            let (key, r) ←
              if front = .value ∨ front = .flowEntry ∨ front = .flowMappingEnd then
                pure r.emptyNode
              else node handles .inFlow fuel r
            let (value, r) ← flowValue handles .flowMappingEnd fuel r
            let (more, r) ← flowEntries handles false fuel r
            pure ((key, value) :: more, r)
        | .flowMappingEnd => pure ([], r.advance)
        | _ =>
            let (key, r) ← node handles .inFlow fuel r
            let (value, r) := r.emptyNode
            let (more, r) ← flowEntries handles false fuel r
            pure ((key, value) :: more, r)

/-- Reads the value of an entry inside brackets, which may be left out. -/
def flowValue (handles : TagHandles) (closing : Token) :
    Nat → NodeReader → Except ReadFault (Node × NodeReader)
  | 0, _ => malformed
  | fuel + 1, r => do
      match ← r.front with
      | .value =>
          let r := r.advance
          let front ← r.front
          if front = .flowEntry ∨ front = closing then pure r.emptyNode
          else node handles .inFlow fuel r
      | _ => pure r.emptyNode

end

/-! ## Documents -/

/-- Reads the directives of a document: at most one version, which must be of the first major
version, and handles of tags, each set once. -/
def directives (versioned : Bool) (handles : TagHandles) :
    Nat → NodeReader → Except ReadFault (TagHandles × NodeReader)
  | 0, _ => malformed
  | fuel + 1, r => do
      match ← r.front with
      | .versionDirective major _ =>
          if versioned || major != 1 then malformed else directives true handles fuel r.advance
      | .tagDirective handle start =>
          if (handles.lookup handle).isSome then malformed
          else directives versioned ((handle, start) :: handles) fuel r.advance
      | .otherDirective => directives versioned handles fuel r.advance
      | _ => pure (handles ++ standardHandles, r)

/-- Skips the marks that end a document. -/
def skipDocumentEnds : Nat → NodeReader → NodeReader
  | 0, r => r
  | fuel + 1, r =>
      match r.tokens with
      | .documentEnd :: _ => skipDocumentEnds fuel r.advance
      | _ => r

/-- Nothing may follow the only document. -/
def expectEnd (r : NodeReader) : Except ReadFault Unit := do
  match ← (skipDocumentEnds r.tokens.length r).front with
  | .streamEnd => pure ()
  | _ => malformed

/-- Reads a document with its marks. -/
def markedDocument (r : NodeReader) : Except ReadFault (Node × NodeReader) := do
  let fuel := 2 * r.tokens.length + 2
  let (handles, r) ← directives false [] fuel r
  match ← r.front with
  | .documentStart =>
      let r := r.advance
      match ← r.front with
      | .versionDirective .. | .tagDirective .. | .otherDirective | .documentStart | .documentEnd
      | .streamEnd => pure r.emptyNode
      | _ => node handles .inBlock fuel r
  | _ => malformed

/-- Reads the only document of a stream of tokens, if there is one. -/
def document (r : NodeReader) : Except ReadFault (Option Node) := do
  match ← r.front with
  | .streamEnd => pure none
  | front =>
      let isMarked := match front with
        | .versionDirective .. | .tagDirective .. | .otherDirective | .documentStart => true
        | _ => false
      let (root, r) ←
        if isMarked then r.markedDocument
        else node standardHandles .inBlock (2 * r.tokens.length + 2) r
      r.expectEnd
      pure (some root)

end NodeReader

/-- The only document of a text, if there is one. -/
def readNode (text : List Char) : Except ReadFault (Option Node) :=
  NodeReader.document { tokens := tokens text, anchors := [], nextLabel := 0 }

end DevMachines.Yaml
