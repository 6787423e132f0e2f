/-!
# Identifiers

Names of a contract become identifiers by their words. A word is a run of ASCII letters and digits,
and within a run a capital begins a new word after a small letter or a digit, or as the last capital
of an acronym (`HTTPServer` has the words `HTTP` and `Server`). The case functions join the words of
a name in one of the usual ways.

## Words

`words` is a recursion on the name: what follows a character is cut already, and the character
either belongs to the first word there or is a word of its own. Where a word ends depends on two
neighbouring characters and on the one behind them (`breaksBetween`). Characters other than ASCII
letters and digits part words and are dropped, so a name without any has no words and gives an empty
identifier.

## Bindings

A name can be bound if it begins with no digit and is no reserved word. Camel case alone gives
neither; `binding` puts an underscore in front of a digit and behind a reserved word. Types and
validators are named in Pascal case without this guard.

What the conversions preserve, and which of them are idempotent, is in
`Proofs.Identifier.Conversion`.
-/

namespace ApiContract

namespace Identifier

/-- Whether a word ends between `c` and `d`, where `next` follows `d`; all are letters or digits. -/
def breaksBetween (c d : Char) (next : Option Char) : Bool :=
  -- Of several capitals the last begins a word if a small letter follows it.
  d.isUpper && (c.isLower || c.isDigit || (c.isUpper && next.any Char.isLower))

/-- Puts a character in front of the first word. -/
def consFirst (c : Char) : List (List Char) → List (List Char)
  | [] => [[c]]
  | word :: words => (c :: word) :: words

/-- The words of a name. -/
def words : List Char → List (List Char)
  | [] => []
  | c :: rest =>
    if c.isAlphanum then
      match rest with
      | [] => [[c]]
      | d :: more =>
        if d.isAlphanum && !breaksBetween c d more.head? then consFirst c (words (d :: more))
        else [c] :: words (d :: more)
    else words rest

/-- A word in small letters. -/
def lowerWord (word : List Char) : List Char := word.map Char.toLower

/-- A word with a capital in front; its other letters stay as they are. -/
def capitalize : List Char → List Char
  | [] => []
  | c :: rest => c.toUpper :: rest

/-- The words of a text. -/
def wordsOf (s : String) : List String := (words s.toList).map String.ofList

/-- `order-items` becomes `OrderItems`. -/
def pascalChars (cs : List Char) : List Char := (words cs).flatMap capitalize

/-- `order-items` becomes `OrderItems`. -/
def pascalCase (s : String) : String := String.ofList (pascalChars s.toList)

/-- `OrderItems` becomes `orderItems`. -/
def camelChars (cs : List Char) : List Char :=
  match words cs with
  | [] => []
  | first :: rest => lowerWord first ++ rest.flatMap capitalize

/-- `OrderItems` becomes `orderItems`. -/
def camelCase (s : String) : String := String.ofList (camelChars s.toList)

/-- The words in small letters with a separator between them. -/
def joinedLower (separator : Char) (cs : List Char) : List Char :=
  List.intercalate [separator] ((words cs).map lowerWord)

/-- `ProductId` becomes `product_id`. -/
def snakeCase (s : String) : String := String.ofList (joinedLower '_' s.toList)

/-- `ProductId` becomes `product-id`. -/
def kebabCase (s : String) : String := String.ofList (joinedLower '-' s.toList)

/-- `productId` becomes `PRODUCT_ID`. -/
def constantCase (s : String) : String :=
  String.ofList ((joinedLower '_' s.toList).map Char.toUpper)

/-- The words that TypeScript does not take as the name of a binding. -/
def reserved : List String := [
  "break", "case", "catch", "class", "const", "continue", "debugger", "default", "delete",
  "do", "else", "enum", "export", "extends", "false", "finally", "for", "function", "if",
  "import", "in", "instanceof", "new", "null", "return", "super", "switch", "this", "throw",
  "true", "try", "typeof", "var", "void", "while", "with", "let", "static", "yield", "await",
  "implements", "interface", "package", "private", "protected", "public"]

/-- An underscore in front of a name that begins with a digit. -/
def guardDigit : List Char → List Char
  | [] => []
  | c :: rest => if c.isDigit then '_' :: c :: rest else c :: rest

/-- An underscore behind a reserved word. -/
def guardReserved (name : String) : String :=
  if reserved.contains name then name ++ "_" else name

/-- A name in camel case that can be bound: `delete` becomes `delete_`, `2fa` becomes `_2fa`. -/
def binding (s : String) : String :=
  guardReserved (String.ofList (guardDigit (camelChars s.toList)))

/-- Whether a character may begin a property name that is written without quotes. -/
def isPlainStart (c : Char) : Bool := c.isAlpha || c == '_' || c == '$'

/-- Whether a character may stand in a property name that is written without quotes. -/
def isPlainChar (c : Char) : Bool := c.isAlphanum || c == '_' || c == '$'

/-- Whether a property name can be written without quotes. -/
def isPlainProperty (name : String) : Bool :=
  match name.toList with
  | [] => false
  | c :: rest => isPlainStart c && rest.all isPlainChar

end Identifier

end ApiContract
