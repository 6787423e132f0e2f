/-!
# Faults of TOML texts

Why a text is not TOML, one constructor per cause, and the wording of each. A fault has no place: a
configuration file is short, and what matters to a run is whether it could be read.
-/

namespace ApiContract.Toml

/-- Why a text is not TOML. -/
inductive Fault where
  | expectedKey
  | expectedEquals
  | expectedValue
  | expectedLineEnd
  | expected (closing : Char)
  | unclosedText
  | invalidEscape
  | controlCharacter
  | invalidNumber
  | numberOutOfRange
  | invalidMoment
  | duplicateKey (key : String)
  | notTable (key : String)
  | nestedTooDeeply
  deriving DecidableEq, Repr

/-- The wording of a fault. -/
def Fault.message : Fault → String
  | expectedKey => "invalid key"
  | expectedEquals => "expected \x60.\x60, \x60=\x60"
  | expectedValue => "invalid value"
  | expectedLineEnd => "expected newline, \x60#\x60"
  | expected closing => "expected \x60" ++ closing.toString ++ "\x60"
  | unclosedText => "invalid string, expected the closing quotes"
  | invalidEscape => "invalid escape sequence"
  | controlCharacter => "control characters have to be escaped"
  | invalidNumber => "invalid number"
  | numberOutOfRange => "number out of range"
  | invalidMoment => "invalid date-time"
  | duplicateKey key => "duplicate key \x60" ++ key ++ "\x60"
  | notTable key => "\x60" ++ key ++ "\x60 is not a table"
  | nestedTooDeeply => "recursion limit exceeded"

/-- A reader takes something off the front of a text. -/
abbrev Reader (α : Type) := List Char → Except Fault (α × List Char)

end ApiContract.Toml
