import ApiContract.Yaml.Token.Block
import ApiContract.Yaml.Token.Plain
import ApiContract.Yaml.Token.Quoted
import ApiContract.Yaml.Token.Tag

/-!
# Cutting a text into tokens

What comes next follows from the next characters and from what the scanner remembers: the
indentation of the blocks around, how many flow collections are open, and where a key may have
begun.

## Keys

That something was a key shows only at the colon behind it; the tokens for a key, and for the block
that it may open, then go in front of it. So the tokens are kept in slots, and a possible key leaves
an empty slot behind. A key ends on the line that it begins on, within 1024 characters; a possible
key that has gone stale is given up, and one that had to be a key is then a fault.

## Blocks

A block is opened by a token that stands further in than the blocks around, and closed, with all
blocks inside it, by one that stands further out. Inside a flow collection indentation means
nothing.

The scanner counts its tokens and the lines between them down, of which a text has no more than
characters.
-/

namespace ApiContract.Yaml

/-- A place where a key may have begun. -/
structure PossibleKey where
  /-- Whether nothing but a key can stand there. -/
  required : Bool
  /-- The slot for the tokens in front of the key. -/
  slot : Nat
  place : Place

/-- What the scanner remembers. -/
structure Scanner where
  cursor : Cursor
  slots : Array (List Token) := #[]
  /-- The indentation of the innermost block, or -1 outside of all. -/
  indent : Int := -1
  /-- The indentations of the blocks around it. -/
  outer : List Int := []
  /-- Whether a key may begin at the next token. -/
  keyAllowed : Bool := true
  /-- Where a key may have begun: for the innermost collection first, one for each flow collection
  that is open and one for what is around them. -/
  keys : List (Option PossibleKey) := [none]

namespace Scanner

/-- Whether the scanner is inside a flow collection. -/
def inFlow (s : Scanner) : Bool := 1 < s.keys.length

/-- The column of the next token. -/
def column (s : Scanner) : Nat := s.cursor.place.column

/-- One more token. -/
def emit (s : Scanner) (token : Token) : Scanner := { s with slots := s.slots.push [token] }

/-- A token that so many characters stand for. -/
def take (s : Scanner) (count : Nat) (token : Token) : Scanner :=
  { s.emit token with cursor := s.cursor.skip count }

/-! ### Indentation -/

/-- Opens a block at a column if it is further in than the blocks around. The token goes into a
slot, in front of what is there. -/
def openBlock (s : Scanner) (column : Nat) (slot : Nat) (token : Token) : Scanner :=
  if s.inFlow || (column : Int) ≤ s.indent then s
  else
    { s with
      slots := s.slots.modify slot (token :: ·)
      outer := s.indent :: s.outer
      indent := column }

/-- Opens a block at the next token. -/
def openBlockHere (s : Scanner) (token : Token) : Scanner :=
  openBlock { s with slots := s.slots.push [] } s.column s.slots.size token

/-- The number of blocks that are further in than a column, from the innermost on. -/
def blocksBeyond (column indent : Int) : List Int → Nat
  | [] => 0
  | next :: outer => if column < indent then blocksBeyond column next outer + 1 else 0

/-- Closes the blocks that are further in than a column. -/
def closeBlocks (s : Scanner) (column : Int) : Scanner :=
  if s.inFlow then s
  else
    let count := blocksBeyond column s.indent s.outer
    if count = 0 then s
    else
      { s with
        slots := s.slots.push (List.replicate count .blockEnd)
        indent := (s.outer.drop (count - 1)).headD (-1)
        outer := s.outer.drop count }

/-! ### Possible keys -/

/-- Whether a possible key can no longer be one at a place. -/
def PossibleKey.isStale (k : PossibleKey) (place : Place) : Bool :=
  k.place.line < place.line || k.place.index + 1024 < place.index

/-- Gives up the possible keys that can no longer be one. -/
def dropStaleKeys (s : Scanner) : Except Fault Scanner := do
  let keys ← s.keys.mapM fun key ↦
    match key with
    | some k =>
      if !PossibleKey.isStale k s.cursor.place then .ok (some k)
      else if k.required then .error .keyWithoutColon
      else .ok none
    | none => .ok none
  return { s with keys }

/-- Gives up the possible key of the innermost collection. -/
def dropKey (s : Scanner) : Except Fault Scanner :=
  match s.keys with
  | some k :: rest =>
    if k.required then .error .keyWithoutColon else .ok { s with keys := none :: rest }
  | _ => .ok s

/-- Remembers that a key may begin at the next token. -/
def saveKey (s : Scanner) : Except Fault Scanner := do
  if !s.keyAllowed then return s
  -- Where a line of a block mapping begins, at its own indentation, only a key can stand.
  let required := !s.inFlow && s.indent == s.column
  let s ← s.dropKey
  return { s with
    slots := s.slots.push []
    keys := some ⟨required, s.slots.size, s.cursor.place⟩ :: s.keys.drop 1 }

/-! ### Tokens -/

/-- A directive or the marker of a document; all blocks end before it. -/
def beforeDocument (s : Scanner) : Except Fault Scanner := do
  let s ← (s.closeBlocks (-1)).dropKey
  return { s with keyAllowed := false }

/-- The beginning of a flow collection. -/
def openFlow (s : Scanner) (token : Token) : Except Fault Scanner := do
  let s ← s.saveKey
  return { s.take 1 token with keyAllowed := true, keys := none :: s.keys }

/-- The end of a flow collection. -/
def closeFlow (s : Scanner) (token : Token) : Except Fault Scanner := do
  let s ← s.dropKey
  return { s.take 1 token with
    keyAllowed := false
    keys := if s.inFlow then s.keys.drop 1 else s.keys }

/-- A comma. -/
def flowEntry (s : Scanner) : Except Fault Scanner := do
  let s ← s.dropKey
  return { s.take 1 .flowEntry with keyAllowed := true }

/-- The dash of an entry. -/
def blockEntry (s : Scanner) : Except Fault Scanner := do
  if !s.inFlow && !s.keyAllowed then throw .sequenceNotAllowed
  let s ← (s.openBlockHere .blockSequenceStart).dropKey
  return { s.take 1 .blockEntry with keyAllowed := true }

/-- The question mark of a key. -/
def explicitKey (s : Scanner) : Except Fault Scanner := do
  if !s.inFlow && !s.keyAllowed then throw .keyNotAllowed
  let s ← (s.openBlockHere .blockMappingStart).dropKey
  return { s.take 1 .key with keyAllowed := !s.inFlow }

/-- The colon of a value. -/
def value (s : Scanner) : Except Fault Scanner := do
  match s.keys with
  | some k :: rest =>
    -- The key is behind us: its token, and the one for the block it opens, go in front of it.
    let s := { s with slots := s.slots.modify k.slot (.key :: ·) }
    let s := s.openBlock k.place.column k.slot .blockMappingStart
    return { s.take 1 .value with keyAllowed := false, keys := none :: rest }
  | _ =>
    if !s.inFlow && !s.keyAllowed then throw .valueNotAllowed
    let s := s.openBlockHere .blockMappingStart
    return { s.take 1 .value with keyAllowed := !s.inFlow }

/-- A token that may be, or begin, a key. -/
def keyLike (s : Scanner) (scan : Cursor → Except Fault (Token × Cursor)) :
    Except Fault Scanner := do
  let s ← s.saveKey
  let (token, cursor) ← scan s.cursor
  return { s.emit token with cursor, keyAllowed := false }

/-- A quoted value. -/
def quoted (s : Scanner) (isSingle : Bool) : Except Fault Scanner :=
  s.keyLike fun c ↦ (scanQuoted isSingle c).map fun (text, after) ↦ (.scalar text false, after)

/-- A plain value. -/
def plain (s : Scanner) : Except Fault Scanner := do
  let s ← s.saveKey
  let (text, cursor, broken) ← scanPlain s.inFlow (s.indent + 1) s.cursor.place {} s.cursor.rest
  return { s.emit (.scalar text true) with cursor, keyAllowed := broken }

/-- A block value. -/
def block (s : Scanner) (isLiteral : Bool) : Except Fault Scanner := do
  let s ← s.dropKey
  let (text, cursor) ← scanBlock isLiteral s.indent s.cursor
  return { s.emit (.scalar text false) with cursor, keyAllowed := true }

/-- The token that the next characters stand for. -/
def token (s : Scanner) : Except Fault Scanner :=
  match s.cursor.rest with
  | [] => .ok s
  | c :: rest =>
    let flow := s.inFlow
    -- The markers come first: at the beginning of a line three dashes are no entry of a sequence.
    if s.column == 0 && c == '%' then do
      let s ← s.beforeDocument
      let (token, cursor) ← scanDirective s.cursor
      return { s.emit token with cursor }
    else if isDocumentMarker s.cursor.place (c :: rest) then do
      let s ← s.beforeDocument
      return s.take 3 (if c == '-' then .documentStart else .documentEnd)
    else if c == '[' then s.openFlow .flowSequenceStart
    else if c == '\x7b' then s.openFlow .flowMappingStart
    else if c == ']' then s.closeFlow .flowSequenceEnd
    else if c == '\x7d' then s.closeFlow .flowMappingEnd
    else if c == ',' then s.flowEntry
    else if c == '-' && endsWord rest then s.blockEntry
    else if c == '?' && (flow || endsWord rest) then s.explicitKey
    else if c == ':' && (flow || endsWord rest) then s.value
    else if c == '*' then s.keyLike (scanAnchor .alias)
    else if c == '&' then s.keyLike (scanAnchor .anchor)
    else if c == '!' then s.keyLike (scanTag flow)
    else if c == '|' && !flow then s.block true
    else if c == '>' && !flow then s.block false
    else if c == '\'' then s.quoted true
    else if c == '"' then s.quoted false
    else if startsPlain flow (c :: rest) then s.plain
    else .error .unknownToken

/-- Skips blanks, comments and line endings up to the next token, and a byte order mark where a line
begins. A tab does not count as a blank where indentation matters. The first argument bounds the
number of lines. -/
def toNextToken : Nat → Scanner → Scanner
  | 0, s => s
  | lines + 1, s =>
    -- Where a key may begin, blanks are indentation, and a tab is none.
    let tabs := s.inFlow || !s.keyAllowed
    let c := if s.column == 0 && s.cursor.next? == some '\uFEFF' then s.cursor.skip else s.cursor
    let c := c.skipWhile fun d ↦ d == ' ' || (tabs && d == '\t')
    let c := if c.next? == some '#' then c.skipWhile fun d ↦ !isBreak d else c
    if (c.next?.map isBreak).getD false then
      toNextToken lines { s with
        cursor := c.skipBreak
        keyAllowed := if s.inFlow then s.keyAllowed else true }
    else { s with cursor := c }

/-- The end of the text: it counts as the beginning of a line, and all blocks end. -/
def finish (s : Scanner) : Except Fault Scanner := (s.closeBlocks (-1)).dropKey

/-- All tokens. The first two arguments bound their number and that of the lines between them. -/
def run (lines : Nat) : Nat → Scanner → Except Fault Scanner
  | 0, s => s.finish
  | steps + 1, s => do
    let s ← (s.toNextToken lines).dropStaleKeys
    let s := s.closeBlocks s.column
    if s.cursor.rest.isEmpty then s.finish else run lines steps (← s.token)

end Scanner

/-- A byte order mark in front of a text does not belong to it. -/
def dropMark : List Char → List Char
  | '\uFEFF' :: rest => rest
  | cs => cs

/-- The tokens of a text. -/
def tokens (text : String) : Except Fault (List Token) := do
  let cs := dropMark text.toList
  if !cs.all isAdmitted then throw .controlCharacter
  let size := cs.length
  let s ← Scanner.run (size + 1) (size + 1) { cursor := ⟨⟨0, 0, 0⟩, cs⟩ }
  return s.slots.toList.flatten

end ApiContract.Yaml
