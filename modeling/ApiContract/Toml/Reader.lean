import ApiContract.Toml.Draft
import ApiContract.Toml.Number

/-!
# Reading TOML

A document is read line by line into a draft, where each heading says which table the keys that
follow belong to. Arrays and inline tables nest less than eighty deep, and a dotted key has less
than eighty parts.

## Structure

`Progress.line` takes one line in: an empty one, a heading of one of two kinds, or a key with its
value. A value can go over several lines, so a line here is what belongs together, and the reader of
lines gives what is behind it. The readers of arrays and inline tables are given the reader of
values, whose only recursion is the nesting.

A fault ends the reading. Nothing is read from what follows it, and nothing of what was read before
counts.
-/

namespace ApiContract.Toml

/-! ### Keys and line ends -/

/-- How deep values may be nested, and how many parts a key may have. -/
def nestingLimit : Nat := 80

/-- A text without the blanks in front. -/
def skipSpace (cs : List Char) : List Char := cs.dropWhile isSpace

/-- A text without a character that must stand in front. -/
def after (c : Char) : List Char → Except Fault (List Char)
  | [] => .error (.expected c)
  | d :: rest => if d = c then .ok rest else .error (.expected c)

/-- One part of a key. -/
def keyPart : Reader String := fun cs ↦
  match line? cs with
  | some reading => reading
  | none =>
    let part := cs.takeWhile isBareKeyChar
    if part.isEmpty then .error .expectedKey
    else .ok (String.ofList part, cs.dropWhile isBareKeyChar)

/-- A key: parts between points, with blanks around each. The first argument bounds their number. -/
def keyParts : Nat → Reader (List String)
  | 0, _ => .error .nestedTooDeeply
  | n + 1, cs => do
    let (part, rest) ← keyPart (skipSpace cs)
    match skipSpace rest with
    | '.' :: more => do
      let (parts, rest) ← keyParts n more
      return (part :: parts, rest)
    | rest => return ([part], rest)

/-- A key, as the path in front of its last part, and that part. -/
def key : Reader (List String × String) := fun cs ↦ do
  let (parts, rest) ← keyParts (nestingLimit - 1) cs
  return ((parts.dropLast, parts.getLast?.getD ""), rest)

/-- What is behind a comment; it begins with the line's ending. -/
def afterComment (cs : List Char) : List Char := cs.dropWhile fun c ↦ !isForbidden c

/-- What is behind the end of a line, where blanks and a comment may stand. -/
def lineEnd (cs : List Char) : Except Fault (List Char) :=
  let rest :=
    match skipSpace cs with
    | '#' :: more => afterComment more
    | rest => rest
  if rest.isEmpty then .ok []
  else
    match afterNewline? rest with
    | some rest => .ok rest
    | none => .error .expectedLineEnd

/-- A text without the blanks, line endings and comments in front. The first argument bounds the
number of comments. -/
def skipComments : Nat → List Char → List Char
  | 0, cs => cs
  | n + 1, cs =>
    match skipLayout cs with
    | '#' :: rest => skipComments n (afterComment rest)
    | rest => rest

/-! ### Values -/

/-- The rest of an array. The first argument bounds the number of items, the second reads one. -/
def items (value : Reader Value) : Nat → List Value → Reader Value
  | 0, _, _ => .error .expectedValue
  | n + 1, before, cs =>
    match skipComments cs.length cs with
    | ']' :: rest => .ok (.array before.reverse, rest)
    | rest => do
      let (item, rest) ← value rest
      match skipComments rest.length rest with
      | ',' :: rest => items value n (item :: before) rest
      | ']' :: rest => return (.array (item :: before).reverse, rest)
      | _ => throw (.expected ']')

/-- The rest of an inline table after an entry's beginning. -/
def entries (value : Reader Value) : Nat → Draft.Entries → Reader Value
  | 0, _, _ => .error .expectedValue
  | n + 1, before, cs => do
    let ((path, name), rest) ← key cs
    match rest with
    | '=' :: rest =>
      let (item, rest) ← value (skipSpace rest)
      let found ← Draft.set path name item .headed before
      match skipSpace rest with
      | ',' :: rest => entries value n found rest
      | '}' :: rest => return (.table (Draft.entriesToValues found), rest)
      | _ => throw (.expected '}')
    | _ => throw .expectedEquals

/-- A value that has no parts. -/
def scalar : Reader Value := fun cs ↦
  match text? cs with
  | some reading => reading.map fun (s, rest) ↦ (.text s, rest)
  | none =>
    match cs with
    | 't' :: 'r' :: 'u' :: 'e' :: rest => .ok (.bool true, rest)
    | 'f' :: 'a' :: 'l' :: 's' :: 'e' :: rest => .ok (.bool false, rest)
    | c :: rest =>
      match special? false (c :: rest) with
      | some found => .ok found
      | none =>
        -- A date begins like an integer, so it is tried first.
        if c.isDigit || c == '+' || c == '-' then (moment? (c :: rest)).getD (number (c :: rest))
        else .error .expectedValue
    | [] => .error .expectedValue

/-- A value with so many levels of arrays and inline tables. -/
def value : Nat → Reader Value
  | 0, cs =>
    match cs with
    | '[' :: _ | '{' :: _ => .error .nestedTooDeeply
    | _ => scalar cs
  | levels + 1, cs =>
    match cs with
    | '[' :: rest => items (value levels) (rest.length + 1) [] rest
    | '{' :: rest =>
      match skipSpace rest with
      | '}' :: rest => .ok (.table [], rest)
      | rest => entries (value levels) (rest.length + 1) [] rest
    | _ => scalar cs

/-! ### Documents -/

/-- A document as far as it is read: its tables, and the path of the last heading. -/
structure Progress where
  entries : Draft.Entries := []
  heading : List String := []

namespace Progress

/-- Takes a heading in. -/
def head (p : Progress) (path : List String) (name : String)
    (opening : String → TableOrigin → Draft.Entries → Except Fault Draft.Entries) :
    Except Fault Progress := do
  let entries ← Draft.change false (opening name) path .headed p.entries
  return { entries, heading := path ++ [name] }

/-- Takes a value in, which belongs to the table of the last heading. -/
def set (p : Progress) (path : List String) (name : String) (value : Value) :
    Except Fault Progress := do
  let entries ← Draft.change false (Draft.set path name value) p.heading .headed p.entries
  return { p with entries }

/-- Takes a line in and gives what is behind it. -/
def line (p : Progress) (cs : List Char) : Except Fault (Progress × List Char) :=
  match cs with
  | '[' :: '[' :: rest => do
    let ((path, name), rest) ← key rest
    let rest ← lineEnd (← after ']' (← after ']' rest))
    return (← p.head path name Draft.openNext, rest)
  | '[' :: rest => do
    let ((path, name), rest) ← key rest
    let rest ← lineEnd (← after ']' rest)
    return (← p.head path name Draft.openTable, rest)
  | cs => do
    let ((path, name), rest) ← key cs
    match rest with
    | '=' :: rest =>
      let (found, rest) ← value (nestingLimit - 1) (skipSpace rest)
      let rest ← lineEnd rest
      return (← p.set path name found, rest)
    | _ => throw .expectedEquals

/-- Takes all lines in. The first argument bounds their number. -/
def lines : Nat → Progress → List Char → Except Fault Progress
  | 0, p, _ => .ok p
  | n + 1, p, cs =>
    match skipSpace cs with
    | [] => .ok p
    | '#' :: rest => do lines n p (← lineEnd ('#' :: rest))
    | c :: rest =>
      match afterNewline? (c :: rest) with
      | some rest => lines n p rest
      | none => do
        let (p, rest) ← p.line (c :: rest)
        lines n p rest

end Progress

/-- The tree of a TOML text; a byte order mark in front of it does not count. -/
def read (text : String) : Except Fault (List (String × Value)) := do
  let cs := if text.toList.head? == some '\uFEFF' then text.toList.drop 1 else text.toList
  let p ← Progress.lines (cs.length + 1) {} cs
  return Draft.entriesToValues p.entries

end ApiContract.Toml
