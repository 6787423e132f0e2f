import ApiContract.Text.Blank

/-!
# Text operations

Cutting texts at a character or into lines, letter case, and replacement. Case is that of ASCII
throughout: the names and keywords that the rules compare are ASCII, and any other letter stands for
itself. Lengths and columns count UTF-8 bytes.

## Lists of characters

Texts are read and cut as lists of characters, where recursion and the lemmas of the library are at
hand, and become texts again at the end. `replaceFrom` replaces from the left and without overlap;
it counts its steps, of which a text never needs more than it has characters, and `Proofs.Text` has
the equations without the count.

## Classes of characters

A class of characters that Unicode defines is a table of ranges, and `inRanges` looks a character up
in it.
-/

namespace ApiContract.Text

/-- The pieces of a text between the occurrences of a character; at least one. -/
def split (s : String) (separator : Char) : List String :=
  (s.toList.splitOn separator).map String.ofList

/-- What follows the given beginning, if the text has it. -/
def afterPrefix? (beginning : List Char) (cs : List Char) : Option (List Char) :=
  if beginning.isPrefixOf cs then some (cs.drop beginning.length) else none

/-- Whether a text begins with another. -/
def startsWith (s beginning : String) : Bool :=
  beginning.toList.isPrefixOf s.toList

/-- What stands between a first and a last character, if the text has both. -/
def between? (first last : Char) : List Char → Option (List Char)
  | [] => none
  | c :: rest =>
    if c = first && rest.getLast? == some last then some rest.dropLast else none

/-- A line without the carriage return that a line feed may have had before it. -/
def dropReturn (cs : List Char) : List Char :=
  if cs.getLast? == some '\r' then cs.dropLast else cs

/-- Lines from the pieces between line feeds: every piece but the last one was ended by a line feed,
and the last one is a line only if it holds something. -/
def linesOfPieces : List (List Char) → List (List Char)
  | [] => []
  | [last] => if last.isEmpty then [] else [last]
  | piece :: rest => dropReturn piece :: linesOfPieces rest

/-- The lines of a text, without their endings (`\n` or `\r\n`). -/
def lines (s : String) : List String :=
  (linesOfPieces (s.toList.splitOn '\n')).map String.ofList

/-- A text with its ASCII capitals in small letters. -/
def lower (s : String) : String :=
  String.ofList (s.toList.map Char.toLower)

/-- A text with its small ASCII letters as capitals. -/
def upper (s : String) : String :=
  String.ofList (s.toList.map Char.toUpper)

/-- Whether two texts agree up to the case of ASCII letters. -/
def sameIgnoringCase (s t : String) : Bool :=
  lower s == lower t

/-- `s` repeated `n` times. -/
def repeated (s : String) : Nat → String
  | 0 => ""
  | n + 1 => s ++ repeated s n

/-- Every occurrence of `target` replaced, from the left and without overlap. The first argument
bounds the steps; the length of the text is enough. -/
def replaceFrom (target replacement : List Char) : Nat → List Char → List Char
  | 0, cs => cs
  | _ + 1, [] => []
  | n + 1, c :: rest =>
    match afterPrefix? target (c :: rest) with
    | some after => replacement ++ replaceFrom target replacement n after
    | none => c :: replaceFrom target replacement n rest

/-- Every occurrence of `target` replaced. The empty text occurs before every character and at the
end. -/
def replaceAll (s target replacement : String) : String :=
  if target.isEmpty then
    String.ofList (replacement.toList ++ s.toList.flatMap fun c ↦ c :: replacement.toList)
  else
    String.ofList (replaceFrom target.toList replacement.toList s.length s.toList)

/-- The number of UTF-8 bytes of a list of characters. -/
def byteCount : List Char → Nat
  | [] => 0
  | c :: rest => c.utf8Size + byteCount rest

/-- The value of a digit in a base up to thirty-six. -/
def digitValue? (base : Nat) (c : Char) : Option Nat :=
  let value? :=
    if c.isDigit then some (c.toNat - '0'.toNat)
    else if c.isLower then some (c.toNat - 'a'.toNat + 10)
    else if c.isUpper then some (c.toNat - 'A'.toNat + 10)
    else none
  value?.filter (· < base)

/-- The number that digits write in a base; `none` for no digits or for anything else. -/
def readNat? (base : Nat) (cs : List Char) : Option Nat :=
  if cs.isEmpty then none
  else cs.foldlM (fun n c ↦ (digitValue? base c).map (n * base + ·)) 0

/-- A list of texts without repetitions of what came before. -/
def distinct (names : List String) : List String :=
  names.foldl (fun seen name ↦ if seen.contains name then seen else seen ++ [name]) []

/-! ### Classes of characters -/

/-- Whether a character lies in one of the ranges, each given by its first and last code point. -/
def inRanges (ranges : List (Nat × Nat)) (c : Char) : Bool :=
  ranges.any fun range ↦ range.1 ≤ c.toNat && c.toNat ≤ range.2

end ApiContract.Text
