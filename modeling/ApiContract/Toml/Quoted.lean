import ApiContract.Text.Basic
import ApiContract.Toml.Fault

/-!
# Quoted texts in TOML

Between double quotes escapes count, between single quotes every character stands for itself. Three
quotes open a text of several lines: a line feed right behind them does not belong to it, every line
ending in it is a line feed, and up to two quotes may stand in front of the closing ones.

The readers of a text's rest hold what they have read, backwards, and count their steps where an
escape can take more than one character off. `text?` answers `none` where no quote stands in front,
so that keys and values can try something else; once a quote is there, any fault is one of the text.
-/

namespace ApiContract.Toml

/-- Whether a character may not stand in a text as it is. -/
def isForbidden (c : Char) : Bool := (c.toNat < 0x20 && c != '\t') || c == '\x7f'

/-- Whether a character is a blank within a line. -/
def isSpace (c : Char) : Bool := c == ' ' || c == '\t'

/-- A text without a line ending in front, if one is there. -/
def afterNewline? : List Char → Option (List Char)
  | '\n' :: rest => some rest
  | '\r' :: '\n' :: rest => some rest
  | _ => none

/-- A text without the blanks and line endings in front. -/
def skipLayout : List Char → List Char
  | '\r' :: '\n' :: rest => skipLayout rest
  | '\n' :: rest => skipLayout rest
  | ' ' :: rest => skipLayout rest
  | '\t' :: rest => skipLayout rest
  | cs => cs

/-- The character with a number of so many hexadecimal digits. -/
def codePoint (count : Nat) : Reader Char := fun cs ↦
  match Text.readNat? 16 (cs.take count) with
  | some n =>
    if n.isValidChar && (cs.take count).length == count then .ok (Char.ofNat n, cs.drop count)
    else .error .invalidEscape
  | none => .error .invalidEscape

/-- The character that an escape stands for, after its backslash. -/
def escape : Reader Char
  | 'b' :: rest => .ok ('\x08', rest)
  | 't' :: rest => .ok ('\t', rest)
  | 'n' :: rest => .ok ('\n', rest)
  | 'f' :: rest => .ok ('\x0c', rest)
  | 'r' :: rest => .ok ('\r', rest)
  | '"' :: rest => .ok ('"', rest)
  | '\\' :: rest => .ok ('\\', rest)
  | 'u' :: rest => codePoint 4 rest
  | 'U' :: rest => codePoint 8 rest
  | _ => .error .invalidEscape

/-- What follows a backslash at the end of a line: the text behind the blanks and line endings
there; `none` if anything else stands in that line. -/
def afterJoin? (cs : List Char) : Option (List Char) :=
  (afterNewline? (cs.dropWhile isSpace)).map skipLayout

/-- The rest of a text in double quotes; the first argument bounds the steps, the second holds what
was read, backwards. -/
def basicBody : Nat → List Char → Reader String
  | 0, _, _ => .error .unclosedText
  | _ + 1, _, [] => .error .unclosedText
  | n + 1, done, c :: rest =>
    if c = '"' then .ok (String.ofList done.reverse, rest)
    else if c = '\\' then do
      let (d, after) ← escape rest
      basicBody n (d :: done) after
    else if isForbidden c then .error .controlCharacter
    else basicBody n (c :: done) rest

/-- The rest of a text in single quotes. -/
def literalBody : Reader String := fun cs ↦
  let body := cs.takeWhile (· ≠ '\'')
  match cs.dropWhile (· ≠ '\'') with
  | [] => .error .unclosedText
  | _ :: rest =>
    if body.any isForbidden then .error .controlCharacter else .ok (String.ofList body, rest)

/-- The rest of a text of several lines, whose quotes are given. In double quotes escapes count, and
a backslash at the end of a line joins it to what follows. -/
def multilineBody (quote : Char) : Nat → List Char → Reader String
  | 0, _, _ => .error .unclosedText
  | _ + 1, _, [] => .error .unclosedText
  | n + 1, done, c :: rest =>
    if c = quote then
      let quotes := (c :: rest).takeWhile (· == quote)
      if quotes.length < 3 then
        multilineBody quote n (quotes ++ done) ((c :: rest).drop quotes.length)
      else
        -- The last three close the text; what stands in front of them, two at most, belongs to it.
        let inside := min quotes.length 5 - 3
        .ok (String.ofList (quotes.take inside ++ done).reverse, (c :: rest).drop (inside + 3))
    else if c = '\\' && quote == '"' then
      match afterJoin? rest with
      | some after => multilineBody quote n done after
      | none => do
        let (d, after) ← escape rest
        multilineBody quote n (d :: done) after
    else
      match afterNewline? (c :: rest) with
      | some after => multilineBody quote n ('\n' :: done) after
      | none =>
        if isForbidden c then .error .controlCharacter
        else multilineBody quote n (c :: done) rest

/-- A text of several lines after the quotes that open it. -/
def multiline (quote : Char) : Reader String := fun cs ↦
  multilineBody quote (cs.length + 1) [] ((afterNewline? cs).getD cs)

/-- A text of one line, if quotes stand in front. -/
def line? : List Char → Option (Except Fault (String × List Char))
  | '"' :: rest => some (basicBody (rest.length + 1) [] rest)
  | '\'' :: rest => some (literalBody rest)
  | _ => none

/-- A text of one line or of several, if quotes stand in front. -/
def text? : List Char → Option (Except Fault (String × List Char))
  | '"' :: '"' :: '"' :: rest => some (multiline '"' rest)
  | '\'' :: '\'' :: '\'' :: rest => some (multiline '\'' rest)
  | cs => line? cs

end ApiContract.Toml
