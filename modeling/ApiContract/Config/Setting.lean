import ApiContract.Number.Shortest
import ApiContract.Toml.Value

/-!
# Settings as trees

The settings of one source, or of several laid over each other, before they are a configuration. The
names in a tree are in small letters. Laying a value over another replaces it, except that a table
is laid over entry by entry. A value is taken for one of another type where its text or number says
which (`text?`, `bool?`).

## Laying over

`layer` and `layerAll` go over a tree together: a table is laid over one that is there name by name,
and any other value takes the place of what is there. What is no table becomes one when something
has to be put under a name in it.

## Paths

The names of a source are paths: `a.b[0]` is the first item of `b` in `a`. A text that writes no
path is one name as it is. A place in a list that is not there yet is filled up to it, counting from
the end if it is negative. A negative place in front of the first one changes nothing; that is the
one case where what a source says has no effect.
-/

namespace ApiContract

/-- A tree of settings. -/
inductive Setting where
  | null
  | bool (value : Bool)
  | int (value : Int)
  | float (value : FloatReading)
  | text (value : String)
  | list (items : List Setting)
  | table (entries : List (String × Setting))
  deriving Inhabited

namespace Setting

/-- The entries of a table; nothing else has entries. -/
def entries : Setting → List (String × Setting)
  | table entries => entries
  | _ => []

/-- The items of a list; nothing else has items. -/
def items : Setting → List Setting
  | list items => items
  | _ => []

/-- Entries with a name set to a value; a new name comes last. -/
def setEntry (name : String) (value : Setting) :
    List (String × Setting) → List (String × Setting)
  | [] => [(name, value)]
  | (other, old) :: rest =>
    if other = name then (other, value) :: rest else (other, old) :: setEntry name value rest

/-! ### Laying over -/

mutual

/-- A tree with a value laid over what it has under a name. What is no table becomes one. -/
def layer (root : Setting) (name : String) : Setting → Setting
  | table entries =>
    let name := Text.lower name
    let old := (root.entries.lookup name).getD (table [])
    table (setEntry name (layerAll old entries) root.entries)
  | value => table (setEntry (Text.lower name) value root.entries)

/-- A tree with entries laid over it. -/
def layerAll (root : Setting) : List (String × Setting) → Setting
  | [] => root
  | (name, value) :: rest => layerAll (layer root name value) rest

end

/-! ### Paths -/

/-- A step from a setting to one of its parts. -/
inductive Step where
  | name (name : String)
  /-- A place in a list, counted from its end if it is negative. -/
  | place (index : Int)
  deriving DecidableEq, Repr

/-- A list with a place set to a value; places that are missing on the way there are filled with
nulls. A place in front of the first one changes nothing. -/
def setPlace (index : Int) (value : Setting) (items : List Setting) : List Setting :=
  let place := if index < 0 then index + items.length else index
  if place < 0 then items
  else
    (items ++ List.replicate (place.toNat + 1 - items.length) null).set place.toNat value

/-- The item at a place; `null` if there is none. -/
def itemAt (index : Int) (items : List Setting) : Setting :=
  let place := if index < 0 then index + items.length else index
  if place < 0 then null else items[place.toNat]?.getD null

/-- A tree with a value laid over what is at the end of a path; what stands in the way is
replaced. -/
def layerAt (root : Setting) (value : Setting) : List Step → Setting
  | [] => root
  | [.name name] => layer root name value
  | [.place index] => list (setPlace index value root.items)
  | .name name :: path =>
    let name := Text.lower name
    let inner := layerAt ((root.entries.lookup name).getD null) value path
    table (setEntry name inner root.entries)
  | .place index :: path =>
    list (setPlace index (layerAt (itemAt index root.items) value path) root.items)

/-- Whether a character may stand in a name of a path. -/
def isNameChar (c : Char) : Bool := c.isAlphanum || c == ' ' || c == '_' || c == '-'

/-- An integer of sixty-four bits, with or without a sign. -/
def integer? (cs : List Char) : Option Int :=
  let (negative, digits) := FloatReading.sign cs
  if digits.all Char.isDigit then
    (Text.readNat? 10 digits).bind fun n ↦
      if n < Nat.pow 2 63 then some (if negative then -n else n)
      else if negative && n == Nat.pow 2 63 then some (-n)
      else none
  else none

/-- An integer with white space around it. -/
def index? (cs : List Char) : Option Int :=
  let isSpace (c : Char) : Bool := c == ' ' || c == '\t' || c == '\n' || c == '\r'
  integer? ((cs.dropWhile isSpace).reverse.dropWhile isSpace).reverse

/-- The steps behind the first name of a path: names after points and places in brackets. The first
argument bounds their number. -/
def steps? : Nat → List Char → Option (List Step)
  | _, [] => some []
  | 0, _ => none
  | n + 1, c :: rest =>
    if c = '.' then
      let name := rest.takeWhile isNameChar
      if name.isEmpty then none
      else (steps? n (rest.dropWhile isNameChar)).map (.name (String.ofList name) :: ·)
    else if c = '[' then
      match index? (rest.takeWhile (· ≠ ']')), rest.dropWhile (· ≠ ']') with
      | some index, _ :: after => (steps? n after).map (.place index :: ·)
      | _, _ => none
    else none

/-- The path that a text writes. A text that writes none is a name as it is. -/
def pathOf (text : String) : List Step :=
  let cs := text.toList
  let name := cs.takeWhile isNameChar
  match if name.isEmpty then none else steps? cs.length (cs.dropWhile isNameChar) with
  | some steps => .name (String.ofList name) :: steps
  | none => [.name text]

/-- A tree with the settings of a source laid over it, whose names are read as paths. -/
def layerSource (root : Setting) (source : List (String × Setting)) : Setting :=
  source.foldl (fun root (name, value) ↦ layerAt root value (pathOf name)) root

/-! ### Taking one type for another -/

/-- The text of a number. -/
def floatText : FloatReading → String
  | .finite x => FloatLayout.plain.render x
  | .infinite negative => if negative then "-inf" else "inf"
  | .notANumber => "NaN"

/-- The text that a setting is or stands for. -/
def text? : Setting → Option String
  | text s => some s
  | bool b => some (if b then "true" else "false")
  | int n => some (toString n)
  | float x => some (floatText x)
  | _ => none

/-- The truth value that a setting is or stands for: a number other than zero is true, and so are
some words. -/
def bool? : Setting → Option Bool
  | bool b => some b
  | int n => some (n != 0)
  | float (.finite x) => some (!x.isZero)
  | float _ => some true
  | text s =>
    let word := Text.lower s
    if ["1", "true", "on", "yes"].contains word then some true
    else if ["0", "false", "off", "no"].contains word then some false
    else none
  | _ => none

/-- The texts that the items of a list are or stand for. -/
def texts? : Setting → Option (List String)
  | list items => items.mapM text?
  | _ => none

/-! ### Sources -/

mutual

/-- The settings of a TOML value. -/
def ofToml : Toml.Value → Setting
  | .text s => text s
  | .int n => int n
  | .float x => float x
  | .bool b => bool b
  | .moment s => text s
  | .array items => list (ofTomlItems items)
  | .table entries => table (ofTomlEntries entries)

/-- The settings of TOML values. -/
def ofTomlItems : List Toml.Value → List Setting
  | [] => []
  | item :: rest => ofToml item :: ofTomlItems rest

/-- The settings of a TOML table. -/
def ofTomlEntries : List (String × Toml.Value) → List (String × Setting)
  | [] => []
  | (name, value) :: rest => (name, ofToml value) :: ofTomlEntries rest

end

end Setting

end ApiContract
