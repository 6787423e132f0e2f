import ApiContract.Json.Basic

/-!
# Records as JSON objects

The pieces that codecs are made of. Writing a record lists its fields and leaves out those that are
absent, false or empty. Reading one looks its fields up by name, whatever their order; an array
stands for a record too, with the fields at their places. A field that may be absent may also be
`null`.

A record is written as the concatenation of its fields, each by `always` or `optional`, and read by
`required?`, `optional?` and `defaulted?` in turn. The two sides meet in lemmas about a single field
(`Proofs.Json.Fields`), so that the round trip of a record follows from those of its fields and no
codec is unfolded as a whole.
-/

namespace ApiContract

namespace Json

/-! ### Writing -/

/-- A field that is always written. -/
def always (name : String) (value : Json) : List (String × Json) := [(name, value)]

/-- A field that is written if there is a value. -/
def optional {α : Type} (name : String) (write : α → Json) : Option α → List (String × Json)
  | none => []
  | some value => [(name, write value)]

/-- A natural number as JSON. -/
def ofNat (n : Nat) : Json := number (.int n)

/-- A list of texts as JSON. -/
def strings (values : List String) : Json := array (values.map string)

/-- A text or `null`. -/
def stringOrNull : Option String → Json
  | none => null
  | some value => string value

/-! ### Reading -/

/-- The fields of a record: those of an object, or the items of an array under the record's names,
in order and not more than there are names. -/
def record? (names : List String) : Json → Option (List (String × Json))
  | object fields => some fields
  | array items => if items.length ≤ names.length then some (names.zip items) else none
  | _ => none

/-- A field that must be there. -/
def required? {α : Type} (read : Json → Option α) (name : String)
    (fields : List (String × Json)) : Option α :=
  (field? name fields).bind read

/-- A field that may be absent or `null`. -/
def optional? {α : Type} (read : Json → Option α) (name : String)
    (fields : List (String × Json)) : Option (Option α) :=
  match field? name fields with
  | none => some none
  | some null => some none
  | some value => (read value).map some

/-- A field with a default for when it is absent; `null` is no value of it. -/
def defaulted? {α : Type} (read : Json → Option α) (default : α) (name : String)
    (fields : List (String × Json)) : Option α :=
  match field? name fields with
  | none => some default
  | some value => read value

/-- An array whose items can all be read. -/
def list? {α : Type} (read : Json → Option α) : Json → Option (List α)
  | array items => items.mapM read
  | _ => none

/-- A natural number of sixty-four bits. -/
def nat? (value : Json) : Option Nat := value.asNumber?.bind Number.toNat?

/-- A double; an integer is read as the nearest one. -/
def float? (value : Json) : Option Binary64 := value.asNumber?.map Number.toBinary64

/-- A word: a string, or an object whose only field has that name and is `null`. -/
def word? : Json → Option String
  | string value => some value
  | object [(name, null)] => some name
  | _ => none

end Json

end ApiContract
