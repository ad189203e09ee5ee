/-!
# Tokens of a YAML text

A text is first cut into tokens.  Besides the visible indicators there are tokens that no character
writes: the start of a block collection, where a line is indented further than its surroundings,
and the end of one, where a line is indented less.

A text that stops making sense does not lose the tokens in front of the fault: the fault is itself
the last token, so that a grammar error earlier in the text is found first.
-/

namespace DevMachines.Yaml

/-- Why a text is no document: it is malformed, or an escape names a code point that does not
exist. -/
inductive ReadFault where
  | malformed
  | noSuchCodePoint (code : Nat)
  deriving DecidableEq, Repr

/-- A token. -/
inductive Token where
  | fault (f : ReadFault)
  | streamEnd
  | versionDirective (major minor : Nat)
  | tagDirective (handle start : String)
  | otherDirective
  | documentStart
  | documentEnd
  | blockSequenceStart
  | blockMappingStart
  | blockEnd
  | flowSequenceStart
  | flowSequenceEnd
  | flowMappingStart
  | flowMappingEnd
  | flowEntry
  | blockEntry
  | key
  | value
  | alias (name : String)
  | anchor (name : String)
  | tag (handle : Option String) (suffix : String)
  | scalar (text : String) (isPlain : Bool)
  deriving DecidableEq, Repr, Inhabited

end DevMachines.Yaml
