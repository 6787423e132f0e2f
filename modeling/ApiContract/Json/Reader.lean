import ApiContract.Json.Basic
import ApiContract.Text.Basic

/-!
# Reading JSON text

The grammar is that of JSON, with two limits: values nest less than 128 deep, and a number must be
finite as a double. A fault names what was expected and the place where the reader stopped, as line
and column, the column counting bytes.

## Numbers

An integer of sixty-four bits is kept as such, minus zero and every other number is a double. Its
digits are gathered into sixty-four bits, further ones only move the point, and one multiplication
or division by a power of ten follows; so a long number may differ from the nearest double in its
last bit.

## Structure

A reader takes something off the front of a list of characters, or fails with a fault and the bytes
that were left there. The readers of items and of fields are given the reader of values, so that the
nesting is the only recursion in `readValue`; where a reader goes over a text of unknown length, its
first argument bounds the steps and the length of the text is enough.

`verbatim` keeps a key that an object repeats; in a document, `ofText`, such a key counts once.
-/

namespace ApiContract

/-- Why a text is not JSON. -/
inductive JsonFault where
  | endInValue
  | endInArray
  | endInObject
  | endInString
  | expectedValue
  | expectedWord
  | expectedColon
  | expectedItemEnd
  | expectedFieldEnd
  | keyNotString
  | trailingComma
  | trailingText
  | invalidNumber
  | numberOutOfRange
  | invalidEscape
  | loneSurrogate
  | unpairedSurrogate
  | controlCharacter
  | nestedTooDeeply
  deriving DecidableEq, Repr

/-- The wording of a fault, without its place. -/
def JsonFault.wording : JsonFault → String
  | endInValue => "EOF while parsing a value"
  | endInArray => "EOF while parsing a list"
  | endInObject => "EOF while parsing an object"
  | endInString => "EOF while parsing a string"
  | expectedValue => "expected value"
  | expectedWord => "expected ident"
  | expectedColon => "expected `:`"
  | expectedItemEnd => "expected `,` or `]`"
  | expectedFieldEnd => "expected `,` or `\x7d`"
  | keyNotString => "key must be a string"
  | trailingComma => "trailing comma"
  | trailingText => "trailing characters"
  | invalidNumber => "invalid number"
  | numberOutOfRange => "number out of range"
  | invalidEscape => "invalid escape"
  | loneSurrogate => "lone leading surrogate in hex escape"
  | unpairedSurrogate => "unexpected end of hex escape"
  | controlCharacter => "control character (\\u0000-\\u001F) found while parsing a string"
  | nestedTooDeeply => "recursion limit exceeded"

namespace Json

/-- A fault, and how many bytes of the text were left where it was noticed. -/
structure ReadError where
  fault : JsonFault
  unread : Nat
  deriving DecidableEq, Repr

/-- A reader takes something off the front of a text. -/
abbrev Reader (α : Type) := List Char → Except ReadError (α × List Char)

/-- A fault noticed in front of the rest of the text. -/
def faultAt {α : Type} (fault : JsonFault) (rest : List Char) : Except ReadError α :=
  .error ⟨fault, Text.byteCount rest⟩

/-- A fault noticed at the next byte, which counts as read if there is one. -/
def faultAtNext {α : Type} (fault : JsonFault) (rest : List Char) : Except ReadError α :=
  .error ⟨fault, Text.byteCount rest - 1⟩

/-- The blanks of JSON: space, line feed, tab and carriage return. -/
def isSpace (c : Char) : Bool := c == ' ' || c == '\n' || c == '\t' || c == '\r'

/-- A text without the blanks in front. -/
def skipSpace (cs : List Char) : List Char := cs.dropWhile isSpace

/-! ### Strings -/

/-- The sixteen bits that four hexadecimal digits write. -/
def hexEscape : Reader Nat := fun cs ↦
  match cs with
  | a :: b :: c :: d :: rest =>
    match Text.readNat? 16 [a, b, c, d] with
    | some n => .ok (n, rest)
    | none => .error ⟨.invalidEscape, Text.byteCount cs - 4⟩
  | _ =>
    -- Four bytes are asked for before their digits are looked at.
    if Text.byteCount cs < 4 then .error ⟨.endInString, 0⟩
    else .error ⟨.invalidEscape, Text.byteCount cs - 4⟩

/-- The second half of a pair of surrogates, after the first. -/
def lowSurrogate (high : Nat) : Reader Char
  | [] => faultAt .endInString []
  | '\\' :: [] => faultAt .endInString []
  | '\\' :: 'u' :: rest =>
    match hexEscape rest with
    | .error e => .error e
    | .ok (low, after) =>
      if low < 0xDC00 ∨ 0xDFFF < low then faultAt .loneSurrogate after
      else .ok (Char.ofNat ((high - 0xD800) * 0x400 + (low - 0xDC00) + 0x10000), after)
  | '\\' :: rest => faultAtNext .unpairedSurrogate rest
  | rest => faultAtNext .unpairedSurrogate rest

/-- What follows `\u` in a string. -/
def unicodeEscape : Reader Char := fun cs ↦
  match hexEscape cs with
  | .error e => .error e
  | .ok (n, rest) =>
    if 0xDC00 ≤ n ∧ n ≤ 0xDFFF then faultAt .loneSurrogate rest
    else if 0xD800 ≤ n ∧ n ≤ 0xDBFF then lowSurrogate n rest
    else .ok (Char.ofNat n, rest)

/-- What follows a backslash in a string. -/
def escape : Reader Char
  | [] => faultAt .endInString []
  | '"' :: rest => .ok ('"', rest)
  | '\\' :: rest => .ok ('\\', rest)
  | '/' :: rest => .ok ('/', rest)
  | 'b' :: rest => .ok ('\x08', rest)
  | 'f' :: rest => .ok ('\x0c', rest)
  | 'n' :: rest => .ok ('\n', rest)
  | 'r' :: rest => .ok ('\r', rest)
  | 't' :: rest => .ok ('\t', rest)
  | 'u' :: rest => unicodeEscape rest
  | rest => faultAtNext .invalidEscape rest

/-- The rest of a string after its opening quote; the first argument bounds the steps, the second
holds what was read, backwards. -/
def stringBody : Nat → List Char → Reader String
  | 0, _, cs => faultAt .endInString cs
  | _ + 1, _, [] => faultAt .endInString []
  | n + 1, done, c :: rest =>
    if c = '"' then .ok (String.ofList done.reverse, rest)
    else if c = '\\' then
      match escape rest with
      | .error e => .error e
      | .ok (d, after) => stringBody n (d :: done) after
    else if c.toNat < 0x20 then faultAt .controlCharacter rest
    else stringBody n (c :: done) rest

/-- A string after its opening quote. -/
def readString : Reader String := fun cs ↦ stringBody (cs.length + 1) [] cs

/-! ### Numbers -/

/-- Appends digits to a number as long as it fits into sixty-four bits; also how many were
appended. -/
def gather (significand : Nat) : List Char → Nat × Nat × List Char
  | [] => (significand, 0, [])
  | c :: rest =>
    let next := significand * 10 + (c.toNat - '0'.toNat)
    if c.isDigit && decide (next < Nat.pow 2 64) then
      let (final, count, after) := gather next rest
      (final, count + 1, after)
    else (significand, 0, c :: rest)

/-- A double times a power of ten: exponents beyond 308 are worked off in steps of 308. The first
argument bounds the steps; four suffice for a number of sixty-four bits. -/
def scale : Nat → Binary64 → Int → Option Binary64
  | 0, x, _ => some x
  | n + 1, x, exponent =>
    if exponent.natAbs ≤ 308 then
      let power := Binary64.ofNat (Nat.pow 10 exponent.natAbs)
      if 0 ≤ exponent then x.mul? power else x.div? power
    else if x.isZero then some x
    -- Too large whatever the significand, which is not zero; small exponents are worked off.
    else if 0 ≤ exponent then none
    else (x.div? (Binary64.ofNat (Nat.pow 10 308))).bind fun y ↦ scale n y (exponent + 308)

/-- The double for gathered digits and an exponent. -/
def floatOf (negative : Bool) (significand : Nat) (exponent : Int) : Reader Number := fun rest ↦
  match scale 4 (Binary64.ofNat significand) exponent with
  | none => faultAt .numberOutOfRange rest
  | some x => .ok (.float (if negative then x.neg else x), rest)

/-- The digits of an exponent, the first of which is there; they stop counting above `2 ^ 31`. -/
def exponentDigits (negative small zero : Bool) (significand : Nat) (start : Int) :
    Nat → Reader Number
  | exponent, [] =>
    floatOf negative significand (if small then start - exponent else start + exponent) []
  | exponent, c :: rest =>
    if c.isDigit then
      let next := exponent * 10 + (c.toNat - '0'.toNat)
      if Nat.pow 2 31 ≤ next then
        -- So large an exponent decides alone, except for zero, which it does not move.
        if !zero && !small then faultAt .numberOutOfRange rest
        else .ok (.float (Binary64.zero negative), rest.dropWhile Char.isDigit)
      else exponentDigits negative small zero significand start next rest
    else
      floatOf negative significand (if small then start - exponent else start + exponent)
        (c :: rest)

/-- An exponent after its `e`. -/
def exponentPart (negative : Bool) (significand : Nat) (start : Int) : Reader Number := fun cs ↦
  let (small, digits) : Bool × List Char :=
    match cs with
    | '+' :: rest => (false, rest)
    | '-' :: rest => (true, rest)
    | rest => (false, rest)
  match digits with
  | [] => faultAt .endInValue []
  | c :: rest =>
    if c.isDigit then
      exponentDigits negative small (significand == 0) significand start (c.toNat - '0'.toNat) rest
    else faultAtNext .invalidNumber digits

/-- What may follow the digits of a number that has a fraction: an exponent or nothing. -/
def afterFraction (negative : Bool) (significand : Nat) (exponent : Int) : Reader Number := fun cs ↦
  match cs with
  | 'e' :: rest | 'E' :: rest => exponentPart negative significand exponent rest
  | rest => floatOf negative significand exponent rest

/-- A fraction after its point. -/
def fractionPart (negative : Bool) (significand : Nat) (exponent : Int) : Reader Number := fun cs ↦
  let (digits, count, rest) := gather significand cs
  match rest with
  | [] =>
    if count = 0 then faultAt .endInValue [] else floatOf negative digits (exponent - count) []
  | c :: _ =>
    if c.isDigit then afterFraction negative digits (exponent - count) (rest.dropWhile Char.isDigit)
    else if count = 0 then faultAtNext .invalidNumber rest
    else afterFraction negative digits (exponent - count) rest

/-- What follows the whole part of a number. -/
def afterWhole (negative : Bool) (significand : Nat) : Reader Number := fun cs ↦
  match cs with
  | '.' :: rest => fractionPart negative significand 0 rest
  | 'e' :: rest | 'E' :: rest => exponentPart negative significand 0 rest
  | rest =>
    if !negative then .ok (.int significand, rest)
    -- No integer is minus zero, and none of sixty-four bits is this small.
    else if significand = 0 ∨ Nat.pow 2 63 < significand then
      .ok (.float (Binary64.ofNat significand).neg, rest)
    else .ok (.int (-(significand : Int)), rest)

/-- A number after its sign. -/
def readNumber (negative : Bool) : Reader Number
  | [] => faultAt .endInValue []
  | '0' :: rest =>
    -- A zero in front of other digits is no number.
    if rest.head?.any Char.isDigit then faultAtNext .invalidNumber rest
    else afterWhole negative 0 rest
  | c :: rest =>
    if c.isDigit then
      let (significand, _, after) := gather 0 (c :: rest)
      if after.head?.any Char.isDigit then
        -- Each digit that is not counted any more moves the point by one.
        let dropped : Int := (after.takeWhile Char.isDigit).length
        match after.dropWhile Char.isDigit with
        | '.' :: more => fractionPart negative significand dropped more
        | 'e' :: more | 'E' :: more => exponentPart negative significand dropped more
        | more => floatOf negative significand dropped more
      else afterWhole negative significand after
    else faultAtNext .invalidNumber (c :: rest)

/-! ### Values -/

/-- The rest of a word after its first letter. -/
def word (value : Json) : List Char → Reader Json
  | [], rest => .ok (value, rest)
  | _ :: _, [] => faultAt .endInValue []
  | expected :: more, c :: rest =>
    if c = expected then word value more rest else faultAtNext .expectedWord (c :: rest)

/-- Items of an array up to its bracket, given how to read one. The first number bounds the
items. -/
def items (readItem : Reader Json) : Nat → Bool → Reader (List Json)
  | 0, _, cs => faultAt .endInArray cs
  | n + 1, first, cs =>
    match skipSpace cs with
    | [] => faultAt .endInArray []
    | ']' :: rest => .ok ([], rest)
    | c :: rest =>
      let next (start : List Char) : Except ReadError (List Json × List Char) :=
        match readItem start with
        | .error e => .error e
        | .ok (item, after) =>
          match items readItem n false after with
          | .error e => .error e
          | .ok (others, final) => .ok (item :: others, final)
      if first then next (c :: rest)
      else if c = ',' then
        match skipSpace rest with
        | [] => faultAt .endInValue []
        | ']' :: more => faultAtNext .trailingComma (']' :: more)
        | start => next start
      else faultAtNext .expectedItemEnd (c :: rest)

/-- The colon after a key. -/
def colon (cs : List Char) : Except ReadError (List Char) :=
  match skipSpace cs with
  | [] => faultAt .endInObject []
  | ':' :: rest => .ok rest
  | rest => faultAtNext .expectedColon rest

/-- Fields of an object up to its brace, given how to read a value. The first number bounds the
fields. -/
def fields (readValue : Reader Json) : Nat → Bool → Reader (List (String × Json))
  | 0, _, cs => faultAt .endInObject cs
  | n + 1, first, cs =>
    match skipSpace cs with
    | [] => faultAt .endInObject []
    | '\x7d' :: rest => .ok ([], rest)
    | c :: rest =>
      let next (afterQuote : List Char) : Except ReadError (List (String × Json) × List Char) :=
        match readString afterQuote with
        | .error e => .error e
        | .ok (key, afterKey) =>
          match colon afterKey with
          | .error e => .error e
          | .ok start =>
            match readValue start with
            | .error e => .error e
            | .ok (value, after) =>
              match fields readValue n false after with
              | .error e => .error e
              | .ok (others, final) => .ok ((key, value) :: others, final)
      if first then
        if c = '"' then next rest else faultAtNext .keyNotString (c :: rest)
      else if c = ',' then
        match skipSpace rest with
        | [] => faultAt .endInValue []
        | '"' :: more => next more
        | '\x7d' :: more => faultAtNext .trailingComma ('\x7d' :: more)
        | more => faultAtNext .keyNotString more
      else faultAtNext .expectedFieldEnd (c :: rest)

/-- A value. `bound` bounds the entries of an array or object, and the next number the nesting. -/
def readValue (bound : Nat) : Nat → Reader Json
  | 0, cs => faultAtNext .nestedTooDeeply cs
  | depth + 1, cs =>
    match skipSpace cs with
    | [] => faultAt .endInValue []
    | 'n' :: rest => word .null ['u', 'l', 'l'] rest
    | 't' :: rest => word (.bool true) ['r', 'u', 'e'] rest
    | 'f' :: rest => word (.bool false) ['a', 'l', 's', 'e'] rest
    | '"' :: rest =>
      match readString rest with
      | .error e => .error e
      | .ok (s, after) => .ok (.string s, after)
    | '[' :: rest =>
      if depth = 0 then faultAtNext .nestedTooDeeply ('[' :: rest)
      else match items (readValue bound depth) bound true rest with
        | .error e => .error e
        | .ok (entries, after) => .ok (.array entries, after)
    | '\x7b' :: rest =>
      if depth = 0 then faultAtNext .nestedTooDeeply ('\x7b' :: rest)
      else match fields (readValue bound depth) bound true rest with
        | .error e => .error e
        | .ok (entries, after) => .ok (.object entries, after)
    | '-' :: rest =>
      match readNumber true rest with
      | .error e => .error e
      | .ok (n, after) => .ok (.number n, after)
    | c :: rest =>
      if c.isDigit then
        match readNumber false (c :: rest) with
        | .error e => .error e
        | .ok (n, after) => .ok (.number n, after)
      else faultAtNext .expectedValue (c :: rest)

/-- How deep values may nest, the innermost value counted. -/
def maxNesting : Nat := 128

/-- Reads a whole text as one value. -/
def readAll (cs : List Char) : Except ReadError Json :=
  match readValue (cs.length + 1) maxNesting cs with
  | .error e => .error e
  | .ok (value, rest) =>
    match skipSpace rest with
    | [] => .ok value
    | more => faultAtNext .trailingText more

/-! ### Places -/

/-- Line and column of the place after so many bytes: lines count from one, columns are the bytes
since the line began. -/
def place : List Char → (bytes line column : Nat) → Nat × Nat
  | [], _, line, column => (line, column)
  | c :: rest, bytes, line, column =>
    if bytes < c.utf8Size then (line, column + bytes)
    else if c = '\n' then place rest (bytes - 1) (line + 1) 0
    else place rest (bytes - c.utf8Size) line (column + c.utf8Size)

/-- The message for a fault in a text: its wording and its place. -/
def ReadError.message (error : ReadError) (text : List Char) : String :=
  let (line, column) := place text (Text.byteCount text - error.unread) 1 0
  error.fault.wording ++ " at line " ++ toString line ++ " column " ++ toString column

/-- The tree that a JSON text writes, with every field that stands in it, or the message of its
first fault. -/
def verbatim (text : String) : Except String Json :=
  let cs := text.toList
  match readAll cs with
  | .ok value => .ok value
  | .error e => .error (e.message cs)

/-- The document that a JSON text writes, where a repeated key counts once, or the message of its
first fault. -/
def ofText (text : String) : Except String Json := (verbatim text).map withoutRepeats

end Json

end ApiContract
