import ApiContract.Text.Shapeless

/-!
# Quoted texts in diagnostics

A text between double quotes, in which quotes, backslashes, the common controls and every character
that would not be seen are written as escapes.

Which characters would not be seen is the subject of `Text.Shapeless`: those without a shape of
their own, and those that only extend the one before. This is the form of texts in messages and
never of texts in generated code.
-/

namespace ApiContract.Text

/-- A code point as an escape: `\\u` and hexadecimal digits in braces. -/
def codePointEscape (c : Char) : List Char :=
  "\\u\x7b".toList ++ Nat.toDigits 16 c.toNat ++ ['\x7d']

/-- A character inside a quoted text. -/
def quotedChar (c : Char) : List Char :=
  if c = '\x00' then ['\\', '0']
  else if c = '\t' then ['\\', 't']
  else if c = '\r' then ['\\', 'r']
  else if c = '\n' then ['\\', 'n']
  else if c = '\\' then ['\\', '\\']
  else if c = '"' then ['\\', '"']
  else if isExtender c || isShapeless c then codePointEscape c
  else [c]

/-- A text in double quotes. -/
def quoted (s : String) : String :=
  String.ofList ('"' :: (s.toList.flatMap quotedChar ++ ['"']))

end ApiContract.Text
