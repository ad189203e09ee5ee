import DevMachines.Yaml.Token.Scalar
import DevMachines.Text.Utf8

/-!
# Cutting a text into tokens

Indentation is part of the grammar, so the lexer keeps the open indentations and writes the tokens
that start and end block collections.

A key without a question mark is known to be one only when its colon is met.  So wherever a key may
start, the lexer remembers the place as a *possible key*; at the colon it goes back and puts the
`key` token, and if need be the start of a mapping, in front of what has become the key.  A possible
key lives on one line and at most 1024 characters, and there is one for every open bracket.
-/

namespace DevMachines.Yaml

/-- A place where a key may have started. -/
structure PossibleKey where
  /-- How many tokens are in front of it. -/
  position : Nat
  /-- Must it be a key?  It must where a line begins a block mapping's entry. -/
  required : Bool
  index : Nat
  line : Nat
  column : Nat

/-- The state of the lexer. -/
structure Lexer where
  cursor : Cursor
  tokens : Array Token
  /-- The innermost indentation, and the ones around it. -/
  indent : Int
  indents : List Int
  /-- May a key start here? -/
  allowKey : Bool
  /-- The possible keys, one for each open bracket, the innermost first; the last is the one outside
  all brackets. -/
  keys : List (Option PossibleKey)
  done : Bool

namespace Lexer

/-- The lexer at the start of a text. -/
def start (text : List Char) : Lexer :=
  { cursor := .start text, tokens := #[], indent := -1, indents := [], allowKey := true
    keys := [none], done := false }

/-- Is the cursor inside brackets? -/
def inFlow (s : Lexer) : Bool := 1 < s.keys.length

/-- Adds a token. -/
def push (t : Token) (s : Lexer) : Lexer := { s with tokens := s.tokens.push t }

/-- Adds a token and moves over the characters that write it. -/
def pushAcross (t : Token) (n : Nat) (s : Lexer) : Lexer :=
  { s.push t with cursor := s.cursor.skip n }

/-- Skips blanks, comments and line breaks.  Outside brackets a key may start on a new line. -/
def skipToToken : Nat → Lexer → Lexer
  | 0, s => s
  | fuel + 1, s =>
      let c := s.cursor.skipWhile (· == ' ')
      let c := if c.here == '#' then c.skipWhile fun ch => !isBreakOrEnd ch else c
      match c.lineBreak with
      | none => { s with cursor := c }
      | some (_, c) => skipToToken fuel { s with cursor := c, allowKey := s.allowKey || !s.inFlow }

/-- Has the line ended, or the limit been passed, since a possible key started? -/
def isStale (c : Cursor) (k : PossibleKey) : Bool := k.line != c.line || 1024 < c.index - k.index

/-- Forgets the possible keys that are stale; a required one must not become so. -/
def dropStaleKeys (s : Lexer) : Except ReadFault Lexer :=
  let stale (key : Option PossibleKey) : Bool := key.any (isStale s.cursor)
  if s.keys.any fun key => stale key && key.any (·.required) then malformed
  else .ok { s with keys := s.keys.map fun key => if stale key then none else key }

/-- Forgets the innermost possible key, which must not be required. -/
def dropKey (s : Lexer) : Except ReadFault Lexer :=
  match s.keys with
  | [] => .ok s
  | key :: rest => if key.any (·.required) then malformed else .ok { s with keys := none :: rest }

/-- Remembers that a key may start here. -/
def noteKey (s : Lexer) : Except ReadFault Lexer :=
  if s.allowKey then do
    let s ← s.dropKey
    let c := s.cursor
    let key : PossibleKey :=
      { position := s.tokens.size, required := !s.inFlow && s.indent == c.column
        index := c.index, line := c.line, column := c.column }
    pure { s with keys := some key :: s.keys.tail }
  else .ok s

/-- Ends the block collections that are indented further than a column. -/
def unwind (column : Int) (s : Lexer) : Lexer :=
  if s.inFlow then s else go s.indents s
where
  /-- The indentations are left one by one. -/
  go : List Int → Lexer → Lexer
    | outer :: rest, s =>
        if column < s.indent then go rest ({ s with indent := outer, indents := rest }.push .blockEnd)
        else s
    | [], s => s

/-- Starts a block collection when a column is further in than the innermost indentation. -/
def indentTo (column : Nat) (s : Lexer) : Option Lexer :=
  if s.indent < column then some { s with indent := column, indents := s.indent :: s.indents }
  else none

/-- Writes the start of a block collection at the cursor, if one starts there. -/
def openBlock (t : Token) (s : Lexer) : Lexer :=
  match s.indentTo s.cursor.column with
  | some s => s.push t
  | none => s

/-- Puts a token in front of the tokens from a position on. -/
def insert (position : Nat) (t : Token) (s : Lexer) : Lexer :=
  { s with tokens := s.tokens.insertIdxIfInBounds position t }

/-! ## Directives, anchors and tags -/

/-- Reads a number of a version. -/
def versionNumber (c : Cursor) : Except ReadFault (Nat × Cursor) :=
  let (digits, c) := c.span fun ch => (digitValue? ch).isSome
  match readDigits? 10 digits with
  | some n => .ok (n, c)
  | none => malformed

/-- Reads an address; percent signs write octets, which must make up characters. -/
def address (c : Cursor) : Except ReadFault (String × Cursor) :=
  let (chars, c) := c.span isAddressChar
  match octets chars with
  | some [] => malformed
  | some bytes =>
      match Text.decode bytes with
      | .ok decoded => .ok (String.ofList decoded, c)
      | .error _ => malformed
  | none => malformed
where
  /-- The octets of the characters, which are ASCII. -/
  octets : List Char → Option Text.Octets
    | [] => some []
    | '%' :: a :: b :: rest => do
        let n ← readDigits? 16 [a, b]
        let more ← octets rest
        pure (UInt8.ofNat n :: more)
    | '%' :: _ => none
    | c :: rest => (octets rest).map (UInt8.ofNat c.toNat :: ·)

/-- Reads the handle of a tag: an exclamation mark, or a name between two. -/
def tagHandle (c : Cursor) : Except ReadFault (String × Cursor) :=
  if c.here != '!' then malformed
  else if c.peek 1 == ' ' then .ok ("!", c.next)
  else
    let (name, after) := c.next.span isNameChar
    if after.here == '!' then .ok (String.ofList ('!' :: (name ++ ['!'])), after.next)
    else malformed

/-- Reads a directive. -/
def directive (c : Cursor) : Except ReadFault (Token × Cursor) := do
  let (name, c) := c.next.span isNameChar
  if name.isEmpty || !isBlankBreakOrEnd c.here then malformed
  else
    let skipBlanks := Cursor.skipWhile (· == ' ')
    match String.ofList name with
    | "YAML" =>
        let (major, c) ← versionNumber (skipBlanks c)
        if c.here != '.' then malformed
        else
          let (minor, c) ← versionNumber c.next
          if !isBlankBreakOrEnd c.here then malformed
          else pure (.versionDirective major minor, ← endOfLine c)
    | "TAG" =>
        let (handle, c) ← tagHandle (skipBlanks c)
        if c.here != ' ' then malformed
        else
          let (start, c) ← address (skipBlanks c)
          if !isBlankBreakOrEnd c.here then malformed
          else pure (.tagDirective handle start, ← endOfLine c)
    | _ => pure (.otherDirective, ← endOfLine (c.skipWhile fun ch => !isBreakOrEnd ch))

/-- Reads the name of an anchor or an alias after its indicator. -/
def anchorName (c : Cursor) : Except ReadFault (String × Cursor) :=
  let (name, c) := c.next.span isNameChar
  if name.isEmpty || !endsAnchorName c.here then malformed else .ok (String.ofList name, c)

/-- Reads a tag: an address in angle brackets, a lone exclamation mark, or a handle with a
suffix. -/
def tag (c : Cursor) : Except ReadFault (Token × Cursor) := do
  let finish (t : Token) (c : Cursor) : Except ReadFault (Token × Cursor) :=
    if isBlankBreakOrEnd c.here then .ok (t, c) else malformed
  if c.peek 1 == '<' then
    let (suffix, c) ← address (c.skip 2)
    if c.here != '>' then malformed else finish (.tag none suffix) c.next
  else if isSpaceOrEnd (c.peek 1) then finish (.tag none "!") c.next
  else if (c.rest.drop 1).takeWhile (fun ch => !isBlankBreakOrEnd ch) |>.contains '!' then
    let (handle, c) ← tagHandle c
    let (suffix, c) ← address c
    finish (.tag (some handle) suffix) c
  else
    let (suffix, c) ← address c.next
    finish (.tag (some "!") suffix) c

/-! ## One token -/

/-- Adds the token for the end of the text. -/
def endStream (s : Lexer) : Except ReadFault Lexer := do
  let s ← (s.unwind (-1)).dropKey
  pure { s.push .streamEnd with done := true }

/-- A directive or a separator of documents ends everything that is open. -/
def closeAll (s : Lexer) : Except ReadFault Lexer := do
  let s ← (s.unwind (-1)).dropKey
  pure { s with allowKey := false }

/-- Opens a bracket. -/
def openFlow (t : Token) (s : Lexer) : Except ReadFault Lexer := do
  let s ← s.noteKey
  pure { s.pushAcross t 1 with keys := none :: s.keys, allowKey := true }

/-- Closes a bracket. -/
def closeFlow (t : Token) (s : Lexer) : Except ReadFault Lexer := do
  let s ← s.dropKey
  let keys := if s.inFlow then s.keys.tail else s.keys
  pure { s.pushAcross t 1 with keys, allowKey := false }

/-- A comma inside brackets. -/
def flowEntry (s : Lexer) : Except ReadFault Lexer := do
  let s ← { s with allowKey := true }.dropKey
  pure (s.pushAcross .flowEntry 1)

/-- The hyphen of an item. -/
def blockEntry (s : Lexer) : Except ReadFault Lexer := do
  if !s.inFlow && !s.allowKey then malformed
  else
    let s := if s.inFlow then s else s.openBlock .blockSequenceStart
    let s ← { s with allowKey := true }.dropKey
    pure (s.pushAcross .blockEntry 1)

/-- The question mark of a key. -/
def explicitKey (s : Lexer) : Except ReadFault Lexer := do
  if !s.inFlow && !s.allowKey then malformed
  else
    let s := if s.inFlow then s else s.openBlock .blockMappingStart
    let s ← { s with allowKey := !s.inFlow }.dropKey
    pure (s.pushAcross .key 1)

/-- The colon of an entry.  With a possible key in hand, that was the key. -/
def entryValue (s : Lexer) : Except ReadFault Lexer := do
  match s.keys with
  | some key :: rest =>
      let s := { s with keys := none :: rest, allowKey := false }.insert key.position .key
      let s :=
        if s.inFlow then s
        else match s.indentTo key.column with
          | some s => s.insert key.position .blockMappingStart
          | none => s
      pure (s.pushAcross .value 1)
  | _ =>
      if !s.inFlow && !s.allowKey then malformed
      else
        let s := if s.inFlow then s else s.openBlock .blockMappingStart
        let s ← { s with allowKey := !s.inFlow }.dropKey
        pure (s.pushAcross .value 1)

/-- Adds a token that may be a key, with the place after it. -/
def keyLike (read : Cursor → Except ReadFault (Token × Cursor)) (s : Lexer) :
    Except ReadFault Lexer := do
  let s ← s.noteKey
  let (t, c) ← read s.cursor
  pure { s.push t with cursor := c, allowKey := false }

/-- Adds a block scalar, after which a key may start. -/
def blockScalarToken (folded : Bool) (s : Lexer) : Except ReadFault Lexer := do
  let s ← { s with allowKey := true }.dropKey
  let (chars, c) ← blockScalar folded s.indent s.cursor.next
  pure { s.push (.scalar (String.ofList chars) false) with cursor := c }

/-- Adds a plain scalar.  If it ends with a line break, a key may start after it. -/
def plainToken (s : Lexer) : Except ReadFault Lexer := do
  let s ← s.noteKey
  let (chars, crossed, c) :=
    plainWords s.inFlow (s.indent + 1) (s.cursor.rest.length + 1) [] false s.cursor
  pure { s.push (.scalar (String.ofList chars) true) with cursor := c, allowKey := crossed }

/-- Adds the next token, at a cursor that stands on it. -/
def token (s : Lexer) : Except ReadFault Lexer :=
  let c := s.cursor
  let ch := c.here
  let after := c.peek 1
  if c.rest.isEmpty then s.endStream
  else if ch == '%' && c.column == 0 then do
    let s ← s.closeAll
    let (t, c) ← directive s.cursor
    pure { s.push t with cursor := c }
  else if c.column == 0 && c.atMarker '-' then s.closeAll.map (pushAcross .documentStart 3)
  else if c.column == 0 && c.atMarker '.' then s.closeAll.map (pushAcross .documentEnd 3)
  else if ch == '[' then s.openFlow .flowSequenceStart
  else if ch == '\x7b' then s.openFlow .flowMappingStart
  else if ch == ']' then s.closeFlow .flowSequenceEnd
  else if ch == '\x7d' then s.closeFlow .flowMappingEnd
  else if ch == ',' then s.flowEntry
  else if ch == '-' && isSpaceOrEnd after then s.blockEntry
  else if ch == '?' && (s.inFlow || isSpaceOrEnd after) then s.explicitKey
  else if ch == ':' && (s.inFlow || isSpaceOrEnd after) then s.entryValue
  else if ch == '*' then s.keyLike fun c => (anchorName c).map fun (name, c) => (.alias name, c)
  else if ch == '&' then s.keyLike fun c => (anchorName c).map fun (name, c) => (.anchor name, c)
  else if ch == '!' then s.keyLike tag
  else if ch == '|' && !s.inFlow then s.blockScalarToken false
  else if ch == '>' && !s.inFlow then s.blockScalarToken true
  else if ch == '\'' || ch == '"' then
    s.keyLike fun c =>
      (quotedRest (ch == '"') (c.rest.length + 1) c.next).map fun (chars, c) =>
        (.scalar (String.ofList chars) false, c)
  else if !(isSpaceOrEnd ch || isIndicator ch) ||
      (!isSpaceOrEnd after && (ch == '-' || (!s.inFlow && (ch == '?' || ch == ':')))) then
    s.plainToken
  else malformed

/-- Skips to the next token and adds it. -/
def step (s : Lexer) : Except ReadFault Lexer := do
  let s := s.skipToToken (s.cursor.rest.length + 1)
  let s ← s.dropStaleKeys
  (s.unwind s.cursor.column).token

/-- The number of tokens in front of the first possible key.  From there on nothing is settled: a
`key` token may still be put in. -/
def settled (s : Lexer) : Nat :=
  let position (key : Option PossibleKey) : Option Nat :=
    match key with
    | some k => if isStale s.cursor k then none else some k.position
    | none => none
  (s.keys.reverse.findSome? position).getD s.tokens.size

/-- Takes steps until the text ends or makes no sense.  A fault takes the place of the tokens that
are not settled. -/
def run : Nat → Lexer → Array Token
  | 0, s => s.tokens
  | fuel + 1, s =>
      if s.done then s.tokens
      else
        match s.step with
        | .ok next => run fuel next
        | .error f => (s.tokens.take s.settled).push (.fault f)

end Lexer

/-- The tokens of a text.  A byte order mark at the very start is skipped, and a text with a
character that may not stand in one has no tokens but the fault. -/
def tokens (text : List Char) : List Token :=
  if text.all isReadable then
    let s := Lexer.start text
    let s := if s.cursor.here == '\ufeff' then { s with cursor := s.cursor.next } else s
    (Lexer.run (text.length + 2) s).toList
  else [.fault .malformed]

end DevMachines.Yaml
