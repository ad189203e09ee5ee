import DevMachines.Yaml.Token
import DevMachines.Yaml.Token.Cursor
import DevMachines.Number.Notation

/-!
# Reading scalars

A scalar is written plain, in single or double quotes, or as a block of lines.  All but the literal
block fold lines: a single line break between two words reads as a blank, and of several breaks the
first is dropped.

Every reader here returns the characters that the scalar means, and the place after it.
-/

namespace DevMachines.Yaml

/-- Gives up. -/
def malformed {α : Type} : Except ReadFault α := .error .malformed

/-- How a line break and the breaks after it read when lines are folded. -/
def foldBreaks (first : Char) (others : List Char) : List Char :=
  if first != '\n' then first :: others
  else if others.isEmpty then [' '] else others

/-! ## Plain scalars -/

/-- The part of a plain scalar up to the next blank or indicator.  A colon ends it only before a
blank; inside brackets also before a bracket or a comma, and brackets and commas end it too. -/
def plainWord (inFlow : Bool) : List Char → List Char
  | [] => []
  | c :: rest =>
      let after := rest.headD endMark
      if isSpaceOrEnd c then []
      else if c == ':' &&
          (isSpaceOrEnd after || (inFlow && (after != '?' && isFlowIndicator after))) then []
      else if inFlow && isFlowIndicator c then []
      else c :: plainWord inFlow rest

/-- The breaks of the empty lines at the cursor; none if a separator of documents comes first. -/
def plainBreaks : Nat → Cursor → Option (List Char) × Cursor
  | 0, c => (some [], c)
  | fuel + 1, c =>
      if c.here == ' ' then plainBreaks fuel c.next
      else
        match c.lineBreak with
        | none => (some [], c)
        | some (br, c) =>
            if c.atSeparator then (none, c)
            else
              let (more, c) := plainBreaks fuel c
              (more.map (br :: ·), c)

/-- The space between two words of a plain scalar: what it reads as, whether it crosses a line, and
the place after it.  Nothing is read when there is no space or a separator of documents follows. -/
def plainSpace (c : Cursor) : List Char × Bool × Cursor :=
  let (blanks, c) := c.span (· == ' ')
  match c.lineBreak with
  | none => (blanks, false, c)
  | some (br, c) =>
      if c.atSeparator then ([], true, c)
      else
        match plainBreaks (c.rest.length + 1) c with
        | (none, c) => ([], true, c)
        | (some others, c) => (foldBreaks br others, true, c)

/-- Reads the words of a plain scalar that is indented by `indent` columns at least; `space` stands
before the next word.  The result says whether the last thing read was a line break. -/
def plainWords (inFlow : Bool) (indent : Int) : Nat → List Char → Bool → Cursor →
    List Char × Bool × Cursor
  | 0, _, crossed, c => ([], crossed, c)
  | fuel + 1, space, crossed, c =>
      let word := if c.here == '#' then [] else plainWord inFlow c.rest
      if word.isEmpty then ([], crossed, c)
      else
        let (gap, crossed, c) := plainSpace (c.skip word.length)
        if gap.isEmpty || c.here == '#' || (!inFlow && c.column < indent) then
          (space ++ word, crossed, c)
        else
          let (more, crossed, c) := plainWords inFlow indent fuel gap crossed c
          (space ++ word ++ more, crossed, c)

/-! ## Quoted scalars -/

/-- The breaks of the empty lines at the cursor, inside quotes. -/
def quotedBreaks : Nat → Cursor → Except ReadFault (List Char × Cursor)
  | 0, _ => malformed
  | fuel + 1, c =>
      if c.atSeparator then malformed
      else
        let c := c.skipWhile fun ch => ch == ' ' || ch == '\t'
        match c.lineBreak with
        | none => .ok ([], c)
        | some (br, c) => (quotedBreaks fuel c).map fun (more, c) => (br :: more, c)

/-- The space between two words inside quotes. -/
def quotedSpace (c : Cursor) : Except ReadFault (List Char × Cursor) :=
  let (blanks, c) := c.span fun ch => ch == ' ' || ch == '\t'
  if c.here == endMark then malformed
  else
    match c.lineBreak with
    | none => .ok (blanks, c)
    | some (br, c) =>
        (quotedBreaks (c.rest.length + 1) c).map fun (others, c) => (foldBreaks br others, c)

/-- The characters with a one-letter escape. -/
def namedEscape (c : Char) : Option Char :=
  match c with
  | '0' => some '\x00'
  | 'a' => some '\x07'
  | 'b' => some '\x08'
  | 't' => some '\t'
  | '\t' => some '\t'
  | 'n' => some '\n'
  | 'v' => some '\x0b'
  | 'f' => some '\x0c'
  | 'r' => some '\r'
  | 'e' => some '\x1b'
  | ' ' => some ' '
  | '"' => some '"'
  | '\\' => some '\\'
  | '/' => some '/'
  | 'N' => some '\u0085'
  | '_' => some '\u00a0'
  | 'L' => some '\u2028'
  | 'P' => some '\u2029'
  | _ => none

/-- The number of hexadecimal digits after an escape letter. -/
def escapeLength (c : Char) : Option Nat :=
  match c with
  | 'x' => some 2
  | 'u' => some 4
  | 'U' => some 8
  | _ => none

/-- Reads what follows a backslash in double quotes. -/
def escapeSequence (c : Cursor) : Except ReadFault (List Char × Cursor) :=
  match namedEscape c.here with
  | some ch => if c.rest.isEmpty then malformed else .ok ([ch], c.next)
  | none =>
      match escapeLength c.here with
      | some length =>
          let c := c.next
          let digits := c.rest.take length
          if digits.length < length then malformed
          else
            match readDigits? 16 digits with
            | none => malformed
            | some code =>
                if code < 0x110000 then .ok ([Char.ofNat code], c.skip length)
                else .error (.noSuchCodePoint code)
      | none =>
          match c.lineBreak with
          | some (_, c) => quotedBreaks (c.rest.length + 1) c
          | none => malformed

/-- Reads the rest of a quoted scalar, its closing quote included. -/
def quotedRest (isDouble : Bool) : Nat → Cursor → Except ReadFault (List Char × Cursor)
  | 0, _ => malformed
  | fuel + 1, c =>
      let ch := c.here
      let quote := if isDouble then '"' else '\''
      if isSpaceOrEnd ch then do
        let (gap, c) ← quotedSpace c
        let (more, c) ← quotedRest isDouble fuel c
        pure (gap ++ more, c)
      else if ch == quote && !isDouble && c.peek 1 == quote then
        (quotedRest isDouble fuel c.next.next).map fun (more, c) => (quote :: more, c)
      else if ch == quote then .ok ([], c.next)
      else if isDouble && ch == '\\' then do
        let (chars, c) ← escapeSequence c.next
        let (more, c) ← quotedRest isDouble fuel c
        pure (chars ++ more, c)
      else (quotedRest isDouble fuel c.next).map fun (more, c) => (ch :: more, c)

/-! ## Block scalars -/

/-- What happens to the line breaks at the end of a block scalar. -/
inductive Chomping where
  | strip
  | clip
  | keep
  deriving DecidableEq

/-- The chomping that an indicator asks for. -/
def chompingOf (c : Char) : Option Chomping :=
  if c == '+' then some .keep else if c == '-' then some .strip else none

/-- Reads the chomping and indentation indicators, which come in either order. -/
def blockHeader (c : Cursor) : Except ReadFault ((Chomping × Option Nat) × Cursor) :=
  let indentationAt (c : Cursor) : Except ReadFault (Option Nat × Cursor) :=
    match digitValue? c.here with
    | none => .ok (none, c)
    | some 0 => malformed
    | some n => .ok (some n, c.next)
  let finish (chomping : Chomping) (indentation : Option Nat) (c : Cursor) :
      Except ReadFault ((Chomping × Option Nat) × Cursor) :=
    if isBlankBreakOrEnd c.here then .ok ((chomping, indentation), c) else malformed
  match chompingOf c.here with
  | some chomping => do
      let (indentation, c) ← indentationAt c.next
      finish chomping indentation c
  | none => do
      let (indentation, c) ← indentationAt c
      match indentation, chompingOf c.here with
      | some _, some chomping => finish chomping indentation c.next
      | _, _ => finish .clip indentation c

/-- Skips the rest of a line, which may hold blanks and a comment. -/
def endOfLine (c : Cursor) : Except ReadFault Cursor :=
  let c := c.skipWhile (· == ' ')
  let c := if c.here == '#' then c.skipWhile fun ch => !isBreakOrEnd ch else c
  match c.lineBreak with
  | some (_, c) => .ok c
  | none => if c.here == endMark then .ok c else malformed

/-- The breaks of the leading empty lines of a block, and the largest column among them. -/
def leadingBreaks : Nat → Nat → Cursor → List Char × Nat × Cursor
  | 0, widest, c => ([], widest, c)
  | fuel + 1, widest, c =>
      if c.here == ' ' then leadingBreaks fuel (max widest c.next.column) c.next
      else
        match c.lineBreak with
        | none => ([], widest, c)
        | some (br, c) =>
            let (more, widest, c) := leadingBreaks fuel widest c
            (br :: more, widest, c)

/-- Skips blanks up to a column. -/
def skipIndentation (indent : Nat) : Nat → Cursor → Cursor
  | 0, c => c
  | fuel + 1, c =>
      if c.column < indent && c.here == ' ' then skipIndentation indent fuel c.next else c

/-- The breaks of the empty lines inside a block. -/
def innerBreaks (indent : Nat) : Nat → Cursor → List Char × Cursor
  | 0, c => ([], c)
  | fuel + 1, c =>
      let c := skipIndentation indent (c.rest.length + 1) c
      match c.lineBreak with
      | none => ([], c)
      | some (br, c) =>
          let (more, c) := innerBreaks indent fuel c
          (br :: more, c)

/-- The end of a block scalar: its last line break and the breaks after it. -/
def chomp (chomping : Chomping) (last : List Char) (breaks : List Char) : List Char :=
  match chomping with
  | .strip => []
  | .clip => last
  | .keep => last ++ breaks

/-- Reads the lines of a block that is indented by `indent` columns; `breaks` come before the next
line. -/
def blockLines (folded : Bool) (indent : Nat) (chomping : Chomping) :
    Nat → List Char → Cursor → List Char × Cursor
  | 0, _, c => ([], c)
  | fuel + 1, breaks, c =>
      if c.column == indent && c.here != endMark then
        let startsWithWord := c.here != ' ' && c.here != '\t'
        let (line, c) := c.span fun ch => !isBreakOrEnd ch
        let (br, c) := match c.lineBreak with
          | some (br, c) => ([br], c)
          | none => ([], c)
        let (others, c) := innerBreaks indent (c.rest.length + 1) c
        if c.column == indent && c.here != endMark then
          let joint :=
            if folded && br == ['\n'] && startsWithWord && c.here != ' ' && c.here != '\t' then
              (if others.isEmpty then [' '] else [])
            else br
          let (more, c) := blockLines folded indent chomping fuel others c
          (breaks ++ line ++ joint ++ more, c)
        else (breaks ++ line ++ chomp chomping br others, c)
      else (chomp chomping [] breaks, c)

/-- Reads a block scalar after its indicator; `indent` is the indentation around it. -/
def blockScalar (folded : Bool) (indent : Int) (c : Cursor) : Except ReadFault (List Char × Cursor) := do
  let ((chomping, indentation), c) ← blockHeader c
  let c ← endOfLine c
  let least := (max (indent + 1) 1).toNat
  match indentation with
  | some n =>
      let indent := least + n - 1
      let (breaks, c) := innerBreaks indent (c.rest.length + 1) c
      pure (blockLines folded indent chomping (c.rest.length + 1) breaks c)
  | none =>
      let (breaks, widest, c) := leadingBreaks (c.rest.length + 1) 0 c
      let indent := max least widest
      pure (blockLines folded indent chomping (c.rest.length + 1) breaks c)

end DevMachines.Yaml
