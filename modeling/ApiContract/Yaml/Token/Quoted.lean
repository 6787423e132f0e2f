import ApiContract.Text.Basic
import ApiContract.Yaml.Fault
import ApiContract.Yaml.Folding

/-!
# Quoted values

Between single quotes only a quote is written specially, namely twice. Between double quotes a
backslash begins an escape: for a character, or for a line ending that does not count.

Both are folded over lines like plain values. A line that begins like the marker of a document ends
the text in the middle of a value, which is a fault, whatever the indentation.
-/

namespace ApiContract.Yaml

/-- The character that a letter after a backslash stands for. -/
def escaped? : Char → Option Char
  | '0' => some '\x00'
  | 'a' => some '\x07'
  | 'b' => some '\x08'
  | 't' | '\t' => some '\t'
  | 'n' => some '\n'
  | 'v' => some '\x0B'
  | 'f' => some '\x0C'
  | 'r' => some '\r'
  | 'e' => some '\x1B'
  | ' ' => some ' '
  | '"' => some '"'
  | '/' => some '/'
  | '\\' => some '\\'
  | 'N' => some '\u0085'
  | '_' => some '\u00A0'
  | 'L' => some '\u2028'
  | 'P' => some '\u2029'
  | _ => none

/-- The number of hexadecimal digits after a letter that announces a code point. -/
def codeLength? : Char → Option Nat
  | 'x' => some 2
  | 'u' => some 4
  | 'U' => some 8
  | _ => none

/-- The character of a code point, which is no surrogate. -/
def charOfCode? (code : Nat) : Option Char :=
  if code < 0xD800 ∨ (0xDFFF < code ∧ code ≤ 0x10FFFF) then some (Char.ofNat code) else none

/-- The character that an escape stands for, given what follows the backslash, and the number of
characters after the backslash that belong to it. -/
def scanEscape : List Char → Except Fault (Char × Nat)
  | [] => .error .unknownEscape
  | c :: rest =>
    match escaped? c, codeLength? c with
    | some d, _ => .ok (d, 1)
    | none, some length =>
      let digits := rest.take length
      match (Text.readNat? 16 digits).bind charOfCode? with
      | some d => if digits.length = length then .ok (d, length + 1) else .error .malformedEscape
      | none => .error .malformedEscape
    | none, none => .error .unknownEscape

/-- The rest of a value between single quotes. -/
def scanSingle (place : Place) (f : Folding) : List Char → Except Fault (String × Cursor)
  | [] => .error .unexpectedEnd
  | '\'' :: '\'' :: rest => scanSingle (place.right 2) (f.push '\'') rest
  | '\'' :: rest => .ok (f.close.result, ⟨place.right, rest⟩)
  | '\r' :: '\n' :: rest => scanSingle (place.below 2) (f.lineEnd '\n') rest
  | c :: rest =>
    if isDocumentMarker place (c :: rest) then .error .unexpectedDocumentMarker
    else if isBreak c then scanSingle place.below (f.lineEnd (breakText c)) rest
    else if isBlank c then scanSingle place.right (f.blank c) rest
    else scanSingle place.right (f.push c) rest

/-- The rest of a value between double quotes. -/
def scanDouble (place : Place) (f : Folding) (cs : List Char) : Except Fault (String × Cursor) :=
  match cs with
  | [] => .error .unexpectedEnd
  | '"' :: rest => .ok (f.close.result, ⟨place.right, rest⟩)
  | '\\' :: '\r' :: '\n' :: rest => scanDouble (place.below 3) f.close.joinedLine rest
  | '\\' :: rest =>
    if (rest.head?.map isBreak).getD false then
      scanDouble (place.below 2) f.close.joinedLine (rest.drop 1)
    else
      match scanEscape rest with
      | .error fault => .error fault
      | .ok (c, length) => scanDouble (place.right (length + 1)) (f.push c) (rest.drop length)
  | '\r' :: '\n' :: rest => scanDouble (place.below 2) (f.lineEnd '\n') rest
  | c :: rest =>
    if isDocumentMarker place (c :: rest) then .error .unexpectedDocumentMarker
    else if isBreak c then scanDouble place.below (f.lineEnd (breakText c)) rest
    else if isBlank c then scanDouble place.right (f.blank c) rest
    else scanDouble place.right (f.push c) rest
termination_by cs.length
decreasing_by all_goals simp <;> omega

/-- A quoted value. -/
def scanQuoted (isSingle : Bool) (c : Cursor) : Except Fault (String × Cursor) :=
  let inside := c.skip
  if isSingle then scanSingle inside.place {} inside.rest
  else scanDouble inside.place {} inside.rest

end ApiContract.Yaml
