import DevMachines.Terminal.Style
import DevMachines.Text.Blank
import DevMachines.Text.Quoted

/-!
# Markup in texts for the console

A tag is a bracket with a lower-case letter, `#`, `/` or `@` behind it, and everything up to the next
closing bracket.  Tags set styles and are not shown; a tag with a slash ends the last style, or the
one that it names.  A backslash before a tag makes it text, and an even number of backslashes stand
for half as many.

`escape` prepares a text so that it comes out of `render` as it is.  Without colours the only thing
left of markup is the text, so `render` returns just that, or the closing tag that closes nothing.
-/

namespace DevMachines.Terminal

/-- A closing tag that closes nothing. -/
inductive MarkupFault where
  | nothingToClose (position : Nat)
  | noSuchTag (tag : String) (position : Nat)
  deriving DecidableEq, Repr

/-- The wording of a fault. -/
def MarkupFault.message : MarkupFault → String
  | .nothingToClose position => s!"closing tag '[/]' at position {position} has nothing to close"
  | .noSuchTag tag position =>
      s!"closing tag '[{tag}]' at position {position} doesn't match any open tag"

/-- A character that a tag may begin with. -/
def startsTag (c : Char) : Bool := ('a' ≤ c && c ≤ 'z') || c == '#' || c == '/' || c == '@'

/-- The inside of a tag whose opening bracket has just been read, and what follows the tag. -/
def tagBody (cs : List Char) : Option (List Char × List Char) :=
  match cs with
  | c :: rest =>
      if startsTag c then
        let body := rest.takeWhile fun c => c != '[' && c != ']'
        match rest.drop body.length with
        | ']' :: after => some (c :: body, after)
        | _ => none
      else none
  | [] => none

/-- A piece of a text with markup. -/
inductive MarkupPiece where
  /-- Characters that are shown, but for backslashes before brackets. -/
  | text (chars : List Char)
  /-- Backslashes or an escaped tag, which are shown as they are. -/
  | verbatim (chars : List Char)
  /-- A tag at a position. -/
  | tag (position : Nat) (body : List Char)
  deriving Repr

/-- The pieces of a text from a position on; `slashes` backslashes stand just before. -/
def pieces (fuel position slashes : Nat) (cs : List Char) : List MarkupPiece :=
  match fuel with
  | 0 => []
  | fuel + 1 =>
      match cs with
      | [] => [.text (List.replicate slashes '\\')]
      | '\\' :: rest => pieces fuel (position + 1) (slashes + 1) rest
      | c :: rest =>
          match (if c = '[' then tagBody rest else none) with
          | some (body, after) =>
              let next := position + body.length + 2
              let shown := MarkupPiece.verbatim (List.replicate (slashes / 2) '\\')
              if slashes % 2 = 1 then
                shown :: .verbatim ('[' :: (body ++ [']'])) :: pieces fuel next 0 after
              else
                let start := if slashes = 0 then position else position - slashes + slashes / 2 * 2
                shown :: .tag start body :: pieces fuel next 0 after
          | none =>
              .text (List.replicate slashes '\\' ++ [c]) :: pieces fuel (position + 1) 0 rest

/-- A backslash before a bracket that is no tag is not shown. -/
def unescapeBrackets : List Char → List Char
  | '\\' :: '[' :: rest => '[' :: unescapeBrackets rest
  | c :: rest => c :: unescapeBrackets rest
  | [] => []

/-- Puts pieces of text that stand side by side together. -/
def joinPieces : List MarkupPiece → List MarkupPiece
  | .text a :: rest =>
      match joinPieces rest with
      | .text b :: more => .text (a ++ b) :: more
      | more => .text a :: more
  | p :: rest => p :: joinPieces rest
  | [] => []

/-- The name of a tag, which ends at an equals sign. -/
def tagName (body : List Char) : List Char := body.takeWhile (· != '=')

/-- The one spelling of the name of a style. -/
def styleSpelling (name : List Char) : String :=
  let words := (wordsOf Text.isBlank name).map String.ofList
  let lower := Text.smallLetters (Text.trimmed (String.ofList name))
  if words.isEmpty || words == ["none"] then "none"
  else
    match readStyle {} words with
    | some parts => " ".intercalate parts.words
    | none => lower

/-- Removes the innermost open style of a name. -/
def closeStyle (name : String) : List String → Option (List String)
  | [] => none
  | s :: rest => if s = name then some rest else (closeStyle name rest).map (s :: ·)

/-- The text that is shown; `opened` are the open styles, the innermost first. -/
def shownText : List String → List MarkupPiece → Except MarkupFault (List Char)
  | _, [] => .ok []
  | opened, .text chars :: rest =>
      (shownText opened rest).map (unescapeBrackets chars ++ ·)
  | opened, .verbatim chars :: rest => (shownText opened rest).map (chars ++ ·)
  | opened, .tag position body :: rest =>
      match tagName body with
      | '/' :: name =>
          let name := Text.trim name
          if name.isEmpty then
            match opened with
            | _ :: opened => shownText opened rest
            | [] => .error (.nothingToClose position)
          else
            match closeStyle (styleSpelling name) opened with
            | some opened => shownText opened rest
            | none => .error (.noSuchTag (String.ofList body) position)
      | name => shownText (styleSpelling name :: opened) rest

/-- Characters that make a terminal do something are not shown. -/
def isTerminalControl (c : Char) : Bool :=
  c == '\x07' || c == '\x08' || c == '\x0b' || c == '\x0c' || c == '\r'

/-- The text that a text with markup shows. -/
def render (markup : List Char) : Except MarkupFault (List Char) :=
  (shownText [] (joinPieces (pieces (markup.length + 1) 0 0 markup))).map
    fun cs => cs.filter (!isTerminalControl ·)

/-- Puts backslashes before every tag, twice as many as there are and one more. -/
def escapeFrom (slashes : Nat) : Nat → List Char → List Char
  | 0, _ => []
  | _ + 1, [] => List.replicate slashes '\\'
  | fuel + 1, '\\' :: rest => escapeFrom (slashes + 1) fuel rest
  | fuel + 1, c :: rest =>
      match (if c = '[' then tagBody rest else none) with
      | some (body, after) =>
          List.replicate (2 * slashes + 1) '\\' ++ '[' :: (body ++ ']' :: escapeFrom 0 fuel after)
      | none => List.replicate slashes '\\' ++ c :: escapeFrom 0 fuel rest

/-- Prepares a text so that it is shown as it is.  A single backslash at the end is doubled, so that
it does not take away the meaning of a tag that follows. -/
def escape (text : List Char) : List Char :=
  let cs := escapeFrom 0 (text.length + 1) text
  match cs.reverse with
  | '\\' :: '\\' :: _ => cs
  | '\\' :: _ => cs ++ ['\\']
  | _ => cs

end DevMachines.Terminal
