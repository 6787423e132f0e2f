import ApiContract.Toml.Quoted
import ApiContract.Toml.Value

/-!
# Numbers and moments in TOML

An integer has sixty-four bits and is written in one of four bases; a number with a fraction or an
exponent is a double. Single underscores may stand between digits. A date, a time of day, or both
with or without a zone is a moment, which is kept as its text.

Digits are gathered as a spelling without underscores, which is then read as a number; so the
grammar and the value of a number are separate. A moment is recognized by its first characters,
before a number is tried, since both begin with digits. Its text is put in one form: two digits
where two belong, `T` between date and time, no zeros at the end of a fraction.
-/

namespace ApiContract.Toml

/-! ### Numbers -/

/-- The digits that follow a digit; the underscores between them go. -/
def moreDigits (isDigit : Char → Bool) : Reader (List Char)
  | [] => .ok ([], [])
  | '_' :: c :: rest =>
    if isDigit c then (moreDigits isDigit rest).map fun (digits, after) ↦ (c :: digits, after)
    else .error .invalidNumber
  | c :: rest =>
    if c = '_' then .error .invalidNumber
    else if isDigit c then (moreDigits isDigit rest).map fun (digits, after) ↦ (c :: digits, after)
    else .ok ([], c :: rest)

/-- Digits, of which there is one at least. -/
def digits (isDigit : Char → Bool) : Reader (List Char)
  | [] => .error .invalidNumber
  | c :: rest =>
    if isDigit c then (moreDigits isDigit rest).map fun (digits, after) ↦ (c :: digits, after)
    else .error .invalidNumber

/-- The whole part of a decimal number: a zero alone, or digits that begin with another. -/
def wholePart : Reader (List Char)
  | '0' :: rest => .ok (['0'], rest)
  | cs => digits Char.isDigit cs

/-- The exponent behind a number's digits, as it is read: nothing, or `e`, a sign and digits. -/
def exponentPart : Reader (List Char)
  | c :: rest =>
    if c = 'e' ∨ c = 'E' then do
      let (sign, unsigned) : List Char × List Char :=
        match rest with
        | '-' :: more => (['-'], more)
        | '+' :: more => ([], more)
        | more => ([], more)
      let (exponent, after) ← digits Char.isDigit unsigned
      return ('e' :: sign ++ exponent, after)
    else .ok ([], c :: rest)
  | [] => .ok ([], [])

/-- A double, which must be finite unless it is negative. -/
def floatOf (spelling : List Char) : Except Fault Value :=
  match FloatReading.ofText? (String.ofList spelling) with
  | some (.infinite false) => .error .numberOutOfRange
  | some x => .ok (.float x)
  | none => .error .invalidNumber

/-- An integer, which must have sixty-four bits. -/
def intOf (negative : Bool) (base : Nat) (spelling : List Char) : Except Fault Value :=
  match Text.readNat? base spelling with
  | none => .error .invalidNumber
  | some n =>
    if n < Nat.pow 2 63 ∨ (negative ∧ n = Nat.pow 2 63) then
      .ok (.int (if negative then -n else n))
    else .error .numberOutOfRange

/-- A decimal number after its sign. -/
def decimal (negative : Bool) : Reader Value := fun cs ↦ do
  let sign := if negative then ['-'] else []
  let (whole, rest) ← wholePart cs
  match rest with
  | '.' :: fractional =>
    let (fraction, rest) ← digits Char.isDigit fractional
    let (exponent, rest) ← exponentPart rest
    return (← floatOf (sign ++ whole ++ '.' :: fraction ++ exponent), rest)
  | _ =>
    let (exponent, rest) ← exponentPart rest
    if exponent.isEmpty then return (← intOf negative 10 whole, rest)
    else return (← floatOf (sign ++ whole ++ exponent), rest)

/-- A word for a number that is not finite, after its sign. -/
def special? (negative : Bool) : List Char → Option (Value × List Char)
  | 'i' :: 'n' :: 'f' :: rest => some (.float (.infinite negative), rest)
  | 'n' :: 'a' :: 'n' :: rest => some (.float .notANumber, rest)
  | _ => none

/-- A number after its sign. -/
def signed (negative : Bool) : Reader Value := fun cs ↦
  match special? negative cs with
  | some found => .ok found
  | none => decimal negative cs

/-- Digits of a base, as an integer. -/
def based (base : Nat) : Reader Value := fun cs ↦ do
  let (spelling, rest) ← digits (fun c ↦ (Text.digitValue? base c).isSome) cs
  return (← intOf false base spelling, rest)

/-- A number. -/
def number : Reader Value
  | '0' :: 'x' :: rest => based 16 rest
  | '0' :: 'o' :: rest => based 8 rest
  | '0' :: 'b' :: rest => based 2 rest
  | '+' :: rest => signed false rest
  | '-' :: rest => signed true rest
  | cs => decimal false cs

/-! ### Moments -/

/-- A number of exactly so many digits that lies between two bounds. -/
def field? (count low high : Nat) (cs : List Char) : Option (Nat × List Char) :=
  if (cs.take count).length = count ∧ (cs.take count).all Char.isDigit then
    ((Text.readNat? 10 (cs.take count)).filter fun n ↦ low ≤ n && n ≤ high).map fun n ↦
      (n, cs.drop count)
  else none

/-- What `field?` finds behind a separator, where it must be. -/
def fieldAfter (separator : Char) (count low high : Nat) : Reader Nat
  | c :: rest =>
    if c = separator then
      match field? count low high rest with
      | some found => .ok found
      | none => .error .invalidMoment
    else .error .invalidMoment
  | [] => .error .invalidMoment

/-- The last day of a month. -/
def lastDay (year month : Nat) : Nat :=
  if month = 2 then
    if year % 4 = 0 ∧ (year % 100 ≠ 0 ∨ year % 400 = 0) then 29 else 28
  else if month = 4 ∨ month = 6 ∨ month = 9 ∨ month = 11 then 30
  else 31

/-- A number of two digits or more. -/
def twoDigits (n : Nat) : String := (if n < 10 then "0" else "") ++ toString n

/-- A fraction of a second: nine digits count, and zeros at its end are not written. -/
def fraction : List Char → String × List Char
  | '.' :: rest =>
    let found := rest.takeWhile Char.isDigit
    if found.isEmpty then ("", '.' :: rest)
    else
      let kept := ((found.take 9).reverse.dropWhile (· == '0')).reverse
      (if kept.isEmpty then "" else "." ++ String.ofList kept, rest.dropWhile Char.isDigit)
  | cs => ("", cs)

/-- A time of day, if an hour and a colon stand in front. -/
def time? (cs : List Char) : Option (Except Fault (String × List Char)) :=
  match field? 2 0 23 cs with
  | some (hour, ':' :: rest) => some do
    let (minute, rest) ← fieldAfter ':' 2 0 59 (':' :: rest)
    let (second, rest) ← fieldAfter ':' 2 0 60 rest
    let (part, rest) := fraction rest
    return (twoDigits hour ++ ":" ++ twoDigits minute ++ ":" ++ twoDigits second ++ part, rest)
  | _ => none

/-- A zone: nothing, `Z`, or hours and minutes with a sign; minus zero is plus zero. -/
def zone : Reader String
  | c :: rest =>
    if c = 'Z' ∨ c = 'z' then .ok ("Z", rest)
    else if c = '+' ∨ c = '-' then
      match field? 2 0 23 rest with
      | none => .error .invalidMoment
      | some (hour, rest) => do
        let (minute, rest) ← fieldAfter ':' 2 0 59 rest
        let sign := if c = '-' ∧ (hour, minute) ≠ (0, 0) then "-" else "+"
        return (sign ++ twoDigits hour ++ ":" ++ twoDigits minute, rest)
    else .ok ("", c :: rest)
  | [] => .ok ("", [])

/-- What may follow a date: nothing, or a time and a zone. -/
def afterDate (cs : List Char) : Except Fault (String × List Char) :=
  match cs with
  | c :: rest =>
    if c = 'T' ∨ c = 't' ∨ c = ' ' then
      match time? rest with
      | none => .ok ("", cs)
      | some reading => do
        let (time, rest) ← reading
        let (zone, rest) ← zone rest
        return ("T" ++ time ++ zone, rest)
    else .ok ("", cs)
  | [] => .ok ("", [])

/-- A moment, if the text begins like one: with a year or an hour and what parts it from the next
number. -/
def moment? (cs : List Char) : Option (Except Fault (Value × List Char)) :=
  match field? 4 0 9999 cs with
  | some (year, '-' :: rest) => some do
    let (month, rest) ← fieldAfter '-' 2 1 12 ('-' :: rest)
    let (day, rest) ← fieldAfter '-' 2 1 (lastDay year month) rest
    let (behind, rest) ← afterDate rest
    let date := String.ofList (cs.take 4) ++ "-" ++ twoDigits month ++ "-" ++ twoDigits day
    return (.moment (date ++ behind), rest)
  | _ => (time? cs).map fun reading ↦ reading.map fun (time, rest) ↦ (.moment time, rest)

end ApiContract.Toml
