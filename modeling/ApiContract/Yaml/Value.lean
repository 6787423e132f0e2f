import ApiContract.Number.Decimal

/-!
# YAML values

What a YAML document says: values with numbers that need not be finite, mappings whose keys may be
any value, and tags.

A key of a mapping that is there already is a fault, so it has to be told when two values are the
same key (`Value.same`). Numbers are the same if they are equal as numbers, and mappings are
whatever the order of their entries is.
-/

namespace ApiContract.Yaml

/-- A value. -/
inductive Value where
  | null
  | bool (value : Bool)
  | int (value : Int)
  | float (value : FloatReading)
  | text (value : String)
  | sequence (items : List Value)
  | mapping (entries : List (Value × Value))
  | tagged (tag : String) (value : Value)
  deriving Inhabited

/-- Whether two doubles are one key: both zeros are, and "not a number" is one key too. -/
def sameFloat : FloatReading → FloatReading → Bool
  | .finite x, .finite y => x == y || (x.isZero && y.isZero)
  | x, y => x == y

/-- A tag without the exclamation mark that it may be written with. -/
def bareTag (tag : String) : List Char :=
  match tag.toList with
  | ['!'] => ['!']
  | '!' :: rest => rest
  | cs => cs

namespace Value

mutual

/-- Whether two values are the same key. The order of a mapping's entries does not matter. -/
def same : Value → Value → Bool
  | null, null => true
  | bool x, bool y => x == y
  | int x, int y => x == y
  | float x, float y => sameFloat x y
  | text x, text y => x == y
  | sequence xs, sequence ys => sameItems xs ys
  | mapping xs, mapping ys => xs.length == ys.length && sameEntries xs ys
  | tagged s x, tagged t y => bareTag s == bareTag t && same x y
  | _, _ => false

/-- Whether two lists of values are the same, item by item. -/
def sameItems : List Value → List Value → Bool
  | [], [] => true
  | x :: xs, y :: ys => same x y && sameItems xs ys
  | _, _ => false

/-- Whether every entry of a mapping is one of another's. -/
def sameEntries : List (Value × Value) → List (Value × Value) → Bool
  | [], _ => true
  | (key, value) :: rest, ys =>
    (ys.any fun y ↦ same key y.1 && same value y.2) && sameEntries rest ys

end

end Value

end ApiContract.Yaml
