import ApiContract.Text.Basic
import ApiContract.Yaml.Fault
import ApiContract.Yaml.Value

/-!
# What plain values stand for

A value without quotes is `null`, a truth value, an integer, a floating-point number or a text,
whichever of these its spelling admits first. An integer may be written in one of four bases; digits
that begin with a needless zero are a text.

A tag of a core type decides over the spelling, and the spelling has to admit that type; a tag of
the document's own is kept with the value and goes later. What a node without parts stands for is a
`ScalarRule`, because settings are read by another one.

An integer of more than sixty-four bits cannot be held by a document and is a fault, unless it has
more than 128; then it is read as a floating-point number.
-/

namespace ApiContract.Yaml

/-- Whether a spelling is that of `null`. -/
def isNullWord (s : String) : Bool := s == "null" || s == "Null" || s == "NULL" || s == "~"

/-- The truth value of a spelling. -/
def boolWord? (s : String) : Option Bool :=
  if s == "true" || s == "True" || s == "TRUE" then some true
  else if s == "false" || s == "False" || s == "FALSE" then some false
  else none

/-- Whether characters begin with a sign. -/
def isSigned : List Char → Bool
  | c :: _ => c == '+' || c == '-'
  | [] => false

/-- Whether a number is written with a needless zero in front. -/
def isPaddedNumber (cs : List Char) : Bool :=
  match (if isSigned cs then cs.drop 1 else cs) with
  | '0' :: c :: rest => (c :: rest).all Char.isDigit
  | _ => false

/-- An unsigned integer in one of the bases that a prefix announces. -/
def basedNat? : List Char → Option Nat
  | '0' :: 'x' :: digits => Text.readNat? 16 digits
  | '0' :: 'o' :: digits => Text.readNat? 8 digits
  | '0' :: 'b' :: digits => Text.readNat? 2 digits
  | _ => none

/-- A natural number: with or without a plus sign, in any of the bases. -/
def nonNegative? (cs : List Char) : Option Nat :=
  let unsigned := if cs.head? == some '+' then cs.drop 1 else cs
  match basedNat? unsigned with
  | some n => some n
  | none =>
    if isSigned unsigned || isPaddedNumber cs then none else Text.readNat? 10 unsigned

/-- An integer with a minus sign. -/
def negative? (cs : List Char) : Option Nat :=
  match cs with
  | '-' :: digits =>
    match basedNat? digits with
    | some n => some n
    | none => if isPaddedNumber cs then none else Text.readNat? 10 digits
  | _ => none

/-- An integer, if a spelling is that of one. One of more than 128 bits is none, and one of more
than 64 cannot be held. -/
def integer? (cs : List Char) : Except Fault (Option Int) :=
  match nonNegative? cs, negative? cs with
  -- Between 64 and 128 bits it is an integer that cannot be held, beyond that it is none.
  | some n, _ =>
    if n < Nat.pow 2 64 then .ok (some n)
    else if n < Nat.pow 2 128 then .error .numberTooLarge
    else .ok none
  | none, some n =>
    if n ≤ Nat.pow 2 63 then .ok (some (-n))
    else if n ≤ Nat.pow 2 127 then .error .numberTooLarge
    else .ok none
  | none, none => .ok none

/-- A floating-point number, if a spelling is that of one. -/
def float? (s : String) : Option FloatReading :=
  let cs := s.toList
  let unsigned := if cs.head? == some '+' then cs.drop 1 else cs
  let word := String.ofList unsigned
  if cs.head? == some '+' && isSigned unsigned then none
  else if word == ".inf" || word == ".Inf" || word == ".INF" then some (.infinite false)
  else if s == "-.inf" || s == "-.Inf" || s == "-.INF" then some (.infinite true)
  else if s == ".nan" || s == ".NaN" || s == ".NAN" then some .notANumber
  else (FloatReading.finite? word).map .finite

/-- What a plain value stands for. -/
def plainValue (s : String) : Except Fault Value :=
  if s.isEmpty || isNullWord s then .ok .null
  else
    match boolWord? s with
    | some b => .ok (.bool b)
    | none => do
      match ← integer? s.toList with
      | some i => return .int i
      | none =>
        match if isPaddedNumber s.toList then none else float? s with
        | some x => return .float x
        | none => return .text s

/-- What a value with a tag stands for, if the tag is one of a core type; `none` if it is not. -/
def coreValue? (tag s : String) : Option (Except Fault Value) :=
  let orUnfit (value : Option Value) : Except Fault Value :=
    match value with
    | some value => .ok value
    | none => .error .unfitTag
  if tag == "tag:yaml.org,2002:bool" then some (orUnfit ((boolWord? s).map .bool))
  else if tag == "tag:yaml.org,2002:int" then
    some do
      match ← integer? s.toList with
      | some i => return .int i
      | none => throw .unfitTag
  else if tag == "tag:yaml.org,2002:float" then some (orUnfit ((float? s).map .float))
  else if tag == "tag:yaml.org,2002:null" then
    some (orUnfit (if isNullWord s then some .null else none))
  else none

/-- A tag that is one of the document's own, which its value keeps. -/
def ownTag? (tag : Option String) : Option String :=
  tag.bind fun tag ↦ if tag.toList.head? == some '!' then some tag else none

/-- A value under its own tag, if it has one; the tag must not be a mere exclamation mark. -/
def tagged (tag : Option String) (value : Value) : Except Fault Value :=
  match ownTag? tag with
  | some "!" => .error .emptyTag
  | some tag => .ok (.tagged (String.ofList (bareTag tag)) value)
  | none => .ok value

/-- What a node without parts stands for, by its tag, its text and whether it is plain. -/
abbrev ScalarRule := Option String → String → Bool → Except Fault Value

/-- The usual rule: a plain text is what its spelling admits, unless its tag says what it is. -/
def scalarValue (tag : Option String) (text : String) (isPlain : Bool) : Except Fault Value :=
  match tag with
  | none => if isPlain then plainValue text else .ok (.text text)
  | some tag =>
    if (ownTag? (some tag)).isSome then
      (if isPlain then plainValue text else .ok (.text text)).bind (tagged (some tag))
    else (coreValue? tag text).getD (.ok (.text text))

end ApiContract.Yaml
