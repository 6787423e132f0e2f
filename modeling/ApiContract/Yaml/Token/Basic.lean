/-!
# Tokens of YAML

What a YAML text is made of. Where blocks begin and end follows from indentation, so there are
tokens for it that no character stands for.

A token has no place, since faults are told without one. Whether a value was written without quotes
stays with its token, because only then does its spelling matter.
-/

namespace ApiContract.Yaml

/-- A tag as it is written: a handle that stands for a beginning, and the rest. A tag with an empty
handle is written in full. -/
structure TagText where
  handle : String
  suffix : String
  deriving DecidableEq, Repr

/-- A token. -/
inductive Token where
  | versionDirective (major minor : Nat)
  | tagDirective (handle beginning : String)
  | documentStart
  | documentEnd
  | blockSequenceStart
  | blockMappingStart
  | blockEnd
  | flowSequenceStart
  | flowSequenceEnd
  | flowMappingStart
  | flowMappingEnd
  | blockEntry
  | flowEntry
  | key
  | value
  | alias (anchor : String)
  | anchor (name : String)
  | tag (text : TagText)
  | scalar (text : String) (isPlain : Bool)
  deriving DecidableEq, Repr

end ApiContract.Yaml
