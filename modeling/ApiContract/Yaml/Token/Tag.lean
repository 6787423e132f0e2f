import ApiContract.Text.Basic
import ApiContract.Yaml.Cursor
import ApiContract.Yaml.Fault
import ApiContract.Yaml.Token.Basic

/-!
# Anchors, tags and directives

An anchor or an alias is a name behind its mark. A tag is a handle and a rest, or is written in full
between angle brackets; characters that may not stand in it are written as the bytes of their UTF-8
form, each behind a percent sign, and are read back here. What a handle stands for is said by
directives and resolved with the events.

Directives are those for the version and for the handles of tags; any other is a fault. Only their
form is read here.
-/

namespace ApiContract.Yaml

/-- Whether a character may stand in a tag. The flow indicators among them are admitted only where a
tag stands by itself. -/
def isTagChar (alone : Bool) (c : Char) : Bool :=
  isNameChar c || ";/?:@&=+$.!~*'()%".toList.contains c || (alone && ",[]".toList.contains c)

/-- The byte that a percent sign and two hexadecimal digits stand for. -/
def percentByte? : List Char → Option (Nat × List Char)
  | '%' :: a :: b :: rest => (Text.readNat? 16 [a, b]).map (·, rest)
  | _ => none

/-- The number of bytes in a UTF-8 sequence with the given first byte. -/
def sequenceLength? (byte : Nat) : Option Nat :=
  if byte < 0x80 then some 1
  else if byte / 0x20 = 0b110 then some 2
  else if byte / 0x10 = 0b1110 then some 3
  else if byte / 0x08 = 0b11110 then some 4
  else none

/-- The code point after so many further bytes of a sequence. -/
def percentTail? : Nat → Nat → List Char → Option (Nat × List Char)
  | 0, code, cs => some (code, cs)
  | n + 1, code, cs =>
    (percentByte? cs).bind fun (byte, rest) ↦
      if byte / 0x40 = 0b10 then percentTail? n (code * 0x40 + byte % 0x40) rest else none

/-- The character that a sequence of escaped bytes stands for. -/
def percentChar? (cs : List Char) : Option (Char × List Char) :=
  (percentByte? cs).bind fun (byte, rest) ↦
    (sequenceLength? byte).bind fun length ↦
      let lead := if length = 1 then byte else byte % Nat.pow 2 (7 - length)
      (percentTail? (length - 1) lead rest).map fun (code, rest) ↦ (Char.ofNat code, rest)

/-- The text that a tag's characters stand for. The first argument bounds their number. -/
def tagText? : Nat → List Char → Option (List Char)
  | _, [] => some []
  | 0, _ => none
  | n + 1, '%' :: rest =>
    (percentChar? ('%' :: rest)).bind fun (c, rest) ↦ (tagText? n rest).map (c :: ·)
  | n + 1, c :: rest => (tagText? n rest).map (c :: ·)

/-- The characters of a tag, after a beginning that is read already. -/
def scanTagText (alone : Bool) (beginning : List Char) (c : Cursor) :
    Except Fault (List Char × Cursor) :=
  let (written, after) := c.span (isTagChar alone)
  match tagText? written.length written with
  | none => .error .malformedTag
  | some text =>
    if (beginning ++ text).isEmpty then .error .malformedTag else .ok (beginning ++ text, after)

/-- A handle: an exclamation mark, or a name between two. -/
def scanHandle (c : Cursor) : List Char × Cursor :=
  let (name, after) := c.skip.span isNameChar
  if after.next? == some '!' then ('!' :: name ++ ['!'], after.skip) else ('!' :: name, after)

/-- Whether a handle is complete, with an exclamation mark at its end. -/
def isNamedHandle (handle : List Char) : Bool :=
  1 < handle.length && handle.getLast? == some '!'

/-- The text of a tag after its handle. -/
def scanTagParts (c : Cursor) : Except Fault (TagText × Cursor) := do
  let (handle, after) := scanHandle c
  if isNamedHandle handle then
    let (suffix, after) ← scanTagText false [] after
    return (⟨String.ofList handle, String.ofList suffix⟩, after)
  else
    -- a lone exclamation mark is a tag of its own
    let (suffix, after) ←
      if (after.span (isTagChar false)).1.isEmpty then
        .ok (handle.drop 1, after)
      else scanTagText false (handle.drop 1) after
    if suffix.isEmpty then return (⟨"", "!"⟩, after)
    else return (⟨"!", String.ofList suffix⟩, after)

/-- A tag; it has to be followed by a blank. -/
def scanTag (inFlow : Bool) (c : Cursor) : Except Fault (Token × Cursor) := do
  let (text, after) ←
    if c.skip.next? == some '<' then do
      let (uri, after) ← scanTagText true [] (c.skip 2)
      if after.next? == some '>' then pure ((⟨"", String.ofList uri⟩ : TagText), after.skip)
      else throw .malformedTag
    else scanTagParts c
  if endsWord after.rest || (inFlow && after.next? == some ',') then return (.tag text, after)
  else throw .malformedTag

/-- The name after an anchor's or alias's mark. -/
def scanAnchor (make : String → Token) (c : Cursor) : Except Fault (Token × Cursor) :=
  let (name, after) := c.skip.span isNameChar
  let ends := endsWord after.rest || "?:,]\x7d%@\x60".toList.contains (after.next?.getD ' ')
  if name.isEmpty || !ends then .error .malformedAnchor
  else .ok (make (String.ofList name), after)

/-! ### Directives -/

/-- A number of a version, of up to nine digits. -/
def scanVersionNumber (c : Cursor) : Except Fault (Nat × Cursor) :=
  let (digits, after) := c.span Char.isDigit
  if digits.isEmpty || 9 < digits.length then .error .malformedDirective
  else .ok ((Text.readNat? 10 digits).getD 0, after)

/-- The version that a text is written for. -/
def scanVersion (c : Cursor) : Except Fault (Token × Cursor) := do
  let (major, after) ← scanVersionNumber (c.skipWhile isBlank)
  if after.next? != some '.' then throw .malformedDirective
  let (minor, after) ← scanVersionNumber after.skip
  return (.versionDirective major minor, after)

/-- What a handle stands for. -/
def scanTagDirective (c : Cursor) : Except Fault (Token × Cursor) := do
  let c := c.skipWhile isBlank
  if c.next? != some '!' then throw .malformedDirective
  let (handle, after) := scanHandle c
  if !(handle == ['!'] || isNamedHandle handle) then throw .malformedDirective
  if !((after.next?.map isBlank).getD false) then throw .malformedDirective
  let (beginning, after) ← scanTagText true [] (after.skipWhile isBlank)
  if !endsWord after.rest then throw .malformedDirective
  return (.tagDirective (String.ofList handle) (String.ofList beginning), after)

/-- A directive, up to the end of its line. -/
def scanDirective (c : Cursor) : Except Fault (Token × Cursor) := do
  let (name, after) := c.skip.span isNameChar
  if name.isEmpty || !endsWord after.rest then throw .malformedDirective
  let (token, after) ←
    if name == "YAML".toList then scanVersion after
    else if name == "TAG".toList then scanTagDirective after
    else throw .unknownDirective
  let after := after.skipComment
  if endsLine after.rest then return (token, after.skipBreak) else throw .malformedDirective

end ApiContract.Yaml
