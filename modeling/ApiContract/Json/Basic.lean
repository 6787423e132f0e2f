import ApiContract.Number.Binary64

/-!
# Document trees

A contract document, whatever its syntax, is a tree of JSON values. An object is a list of fields in
document order; writing a field that is there already replaces its value and keeps its place
(`putField`), and so does a key that a text repeats (`Json.withoutRepeats`).

## Representation

The type admits objects whose keys repeat, because a text can write one and a record must be able to
refuse it (`Spec.Record`). The documents that are linted and resolved have distinct keys:
`withoutRepeats` makes them so, and no function here brings a key in twice
(`Proofs.Json.DistinctKeys`).

A number is an integer or a double, and stays what it was written as. The type bounds neither; the
readers do (`Proofs.Json.Numbers`).

## Access

The functions `asString?`, `asArray?` and so on ask for a value of one kind and answer `none` for
any other, so a malformed part of a document reads like one that is missing. Whatever else is made
of it is up to the caller.
-/

namespace ApiContract

/-- A number of a document: an integer or a double. The integers of a document that was read lie
between `-2 ^ 63` and `2 ^ 64 - 1`, and its doubles are numbers of the format
(`DocumentSyntax.numbersIn_of_parse`). -/
inductive Number where
  | int (value : Int)
  | float (value : Binary64)
  deriving DecidableEq, Repr

/-- A document tree. -/
inductive Json where
  | null
  | bool (value : Bool)
  | number (value : Number)
  | string (value : String)
  | array (items : List Json)
  | object (fields : List (String × Json))
  deriving Inhabited

/-- The value of a field. -/
def field? (name : String) : List (String × Json) → Option Json
  | [] => none
  | (key, value) :: rest => if key = name then some value else field? name rest

/-- Whether there is a field of that name. -/
def hasField (name : String) (fields : List (String × Json)) : Bool :=
  (field? name fields).isSome

/-- The fields with one more, or with a new value in the place of the old one. -/
def putField (name : String) (value : Json) : List (String × Json) → List (String × Json)
  | [] => [(name, value)]
  | (key, old) :: rest =>
    if key = name then (key, value) :: rest else (key, old) :: putField name value rest

namespace Number

/-- The number as a double. -/
def toBinary64 : Number → Binary64
  | int value => Binary64.ofInt value
  | float value => value

/-- The number as a natural number, if it is one of sixty-four bits and written as an integer. -/
def toNat? : Number → Option Nat
  | int value => if 0 ≤ value then some value.toNat else none
  | float _ => none

end Number

namespace Json

/-- A field of an object; nothing else has fields. -/
def get? (name : String) : Json → Option Json
  | object fields => field? name fields
  | _ => none

/-- The text of a string. -/
def asString? : Json → Option String
  | string value => some value
  | _ => none

/-- The value of a truth value. -/
def asBool? : Json → Option Bool
  | bool value => some value
  | _ => none

/-- The items of an array. -/
def asArray? : Json → Option (List Json)
  | array items => some items
  | _ => none

/-- The fields of an object. -/
def asObject? : Json → Option (List (String × Json))
  | object fields => some fields
  | _ => none

/-- The number, if it is one. -/
def asNumber? : Json → Option Number
  | number value => some value
  | _ => none

/-- Whether the value is `null`. -/
def isNull : Json → Bool
  | null => true
  | _ => false

/-- Whether the value is a string. -/
def isString : Json → Bool
  | string _ => true
  | _ => false

/-- Whether the value is a truth value. -/
def isBool : Json → Bool
  | bool _ => true
  | _ => false

/-- Whether the value is a number. -/
def isNumber : Json → Bool
  | number _ => true
  | _ => false

/-- Whether the value is a number written as an integer. -/
def isInteger : Json → Bool
  | number (.int _) => true
  | _ => false

/-- The string at a field. -/
def stringAt? (name : String) (value : Json) : Option String :=
  (value.get? name).bind asString?

/-! ### Repeated keys -/

mutual

/-- The tree in which a key that an object repeats counts once: with its last value, at its first
place. -/
def withoutRepeats : Json → Json
  | array items => array (itemsWithoutRepeats items)
  | object fields => object (fieldsWithoutRepeats [] fields)
  | value => value

/-- Items without repeated keys. -/
def itemsWithoutRepeats : List Json → List Json
  | [] => []
  | item :: rest => item.withoutRepeats :: itemsWithoutRepeats rest

/-- Fields put one by one to those before them. -/
def fieldsWithoutRepeats (done : List (String × Json)) : List (String × Json) → List (String × Json)
  | [] => done
  | (key, value) :: rest => fieldsWithoutRepeats (putField key value.withoutRepeats done) rest

end

end Json

end ApiContract
