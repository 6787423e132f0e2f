import ApiContract.Number.Decimal

/-!
# TOML documents as trees

What a TOML document says: a table of named values. A moment in time is kept as its text, since
nothing here computes with one.

Numbers are integers or readings of doubles, which need not be finite, because TOML can write an
infinite number. The entries of a table are a list in the order in which their keys were first
written.
-/

namespace ApiContract.Toml

/-- A value. -/
inductive Value where
  | text (value : String)
  | int (value : Int)
  | float (value : FloatReading)
  | bool (value : Bool)
  | moment (text : String)
  | array (items : List Value)
  | table (entries : List (String × Value))
  deriving Inhabited

namespace Value

/-- Whether the value is a table, which is written under a heading of its own. -/
def isTable : Value → Bool
  | table _ => true
  | _ => false

end Value

/-- Whether a key may be written without quotes by its characters. -/
def isBareKeyChar (c : Char) : Bool := c.isAlphanum || c == '_' || c == '-'

end ApiContract.Toml
