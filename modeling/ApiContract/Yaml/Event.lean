import ApiContract.Yaml.Fault
import ApiContract.Yaml.Token.Basic

/-!
# Events

The structure of a document, as the sequence of what a reader meets: values, beginnings and ends of
collections. The grammar is read by an automaton with a stack: a state says what may come next, and
the stack says how to go on after the node that is being read.

## Steps

Every step looks at the next token, gives an event or none, and says what is expected then
(`Expectation`). A node that is not written, such as the value behind a key at the end of a line, is
an event too (`Event.nothing`). `run` counts the steps; a token stands for three events at most, so
a few times the number of tokens is enough.

## Documents and handles

Directives stand in front of a document and say what the handles of tags stand for; they hold for
that document alone. The events of all documents of a text are read, so that a fault behind the
first document is not overlooked.
-/

namespace ApiContract.Yaml

/-- What a reader meets. -/
inductive Event where
  | alias (anchor : String)
  | scalar (anchor tag : Option String) (text : String) (isPlain : Bool)
  | sequenceStart (anchor tag : Option String)
  | sequenceEnd
  | mappingStart (anchor tag : Option String)
  | mappingEnd
  | documentEnd
  deriving DecidableEq, Repr

namespace Event

/-- The value of a node that is not written. -/
def nothing : Event := scalar none none "" true

end Event

/-- What may come next. -/
inductive Expectation where
  | firstDocument
  | document
  | documentContent
  | documentEnd
  | blockNode
  | blockSequenceFirst
  | blockSequence
  | indentlessSequence
  | blockMappingFirst
  | blockMappingKey
  | blockMappingValue
  | flowSequenceFirst
  | flowSequence
  | flowPairKey
  | flowPairValue
  | flowPairEnd
  | flowMappingFirst
  | flowMappingKey
  | flowMappingValue
  | flowMappingNoValue
  | finished
  deriving DecidableEq, Repr

/-- A reader of tokens. -/
structure EventReader where
  tokens : List Token
  expects : Expectation := .firstDocument
  /-- What is expected after the node that is being read, the innermost first. -/
  after : List Expectation := []
  /-- What the handles of tags stand for. -/
  handles : List (String × String) := []

namespace EventReader

/-- What the handles stand for unless a directive says otherwise. -/
def defaultHandles : List (String × String) := [("!", "!"), ("!!", "tag:yaml.org,2002:")]

/-- The next token. -/
def next? (r : EventReader) : Option Token := r.tokens.head?

/-- The reader behind the next token. -/
def skip (r : EventReader) : EventReader := { r with tokens := r.tokens.drop 1 }

/-- The reader with another expectation. -/
def expecting (r : EventReader) (e : Expectation) : EventReader := { r with expects := e }

/-- The reader after a whole node. -/
def leave (r : EventReader) : EventReader :=
  { r with expects := r.after.headD .finished, after := r.after.drop 1 }

/-- An event, if any, and the reader after it. -/
abbrev Step := Except Fault (Option Event × EventReader)

/-- A step with an event. -/
def give (event : Event) (r : EventReader) : Step := .ok (some event, r)

/-- Whether the next token is one of several. -/
def nextIsOneOf (r : EventReader) (tokens : List Token) : Bool :=
  match r.next? with
  | some token => tokens.contains token
  | none => false

/-! ### Nodes -/

/-- The full text of a tag. -/
def resolveTag (r : EventReader) (tag : TagText) : Except Fault String :=
  if tag.handle.isEmpty then .ok tag.suffix
  else
    match r.handles.lookup tag.handle with
    | some beginning => .ok (beginning ++ tag.suffix)
    | none => .error .unknownTagHandle

/-- The anchor and the tag in front of a node, in either order, at most one of each. -/
def properties (r : EventReader) : Option String × Option TagText × EventReader :=
  match r.tokens with
  | .anchor name :: .tag tag :: _ => (some name, some tag, r.skip.skip)
  | .tag tag :: .anchor name :: _ => (some name, some tag, r.skip.skip)
  | .anchor name :: _ => (some name, none, r.skip)
  | .tag tag :: _ => (none, some tag, r.skip)
  | _ => (none, none, r)

/-- A node: an alias, a value, or the beginning of a collection. Block collections may stand only in
a block, and only as a mapping's key or value may a sequence stand that is not indented. A tag that
is nothing but an exclamation mark says nothing of a written value. -/
def node (r : EventReader) (inBlock indentless : Bool) : Step := do
  match r.next? with
  | some (.alias anchor) => give (.alias anchor) r.skip.leave
  | _ =>
    let (anchor, tagText, r) := r.properties
    let tag ← match tagText with
      | some text => (r.resolveTag text).map some
      | none => .ok none
    match r.next? with
    | some .blockEntry =>
      if indentless then give (.sequenceStart anchor tag) (r.expecting .indentlessSequence)
      else orNothing anchor tag r
    | some (.scalar text isPlain) =>
      -- A lone exclamation mark is a tag that names no type.
      give (.scalar anchor (tag.filter (· != "!")) text isPlain) r.skip.leave
    | some .flowSequenceStart => give (.sequenceStart anchor tag) (r.expecting .flowSequenceFirst)
    | some .flowMappingStart => give (.mappingStart anchor tag) (r.expecting .flowMappingFirst)
    | some .blockSequenceStart =>
      if inBlock then give (.sequenceStart anchor tag) (r.expecting .blockSequenceFirst)
      else orNothing anchor tag r
    | some .blockMappingStart =>
      if inBlock then give (.mappingStart anchor tag) (r.expecting .blockMappingFirst)
      else orNothing anchor tag r
    | _ => orNothing anchor tag r
where
  /-- A node of which only the anchor or the tag is written. -/
  orNothing (anchor tag : Option String) (r : EventReader) : Step :=
    if anchor.isSome || tag.isSome then give (.scalar anchor tag "" true) r.leave
    else .error .expectedContent

/-- A node, unless one of the given tokens comes next; then nothing is written for it. After the
node one thing is expected, without it another. -/
def nodeUnless (r : EventReader) (tokens : List Token) (inBlock indentless : Bool)
    (after : Expectation) : Step :=
  if r.nextIsOneOf tokens then give .nothing (r.expecting after)
  else node { r with after := after :: r.after } inBlock indentless

/-! ### Documents -/

/-- Adds what a directive says to a list of handles. -/
def addHandle (handles : List (String × String)) (handle beginning : String) :
    Except Fault (List (String × String)) :=
  if (handles.lookup handle).isSome then .error .duplicateDirective
  else .ok ((handle, beginning) :: handles)

/-- The directives in front of a document. The first arguments say whether a version was stated and
which handles were. -/
def directives (hasVersion : Bool) (handles : List (String × String)) :
    List Token → Except Fault (List (String × String) × List Token)
  | .versionDirective major minor :: rest =>
    if hasVersion then .error .duplicateDirective
    else if major ≠ 1 ∨ (minor ≠ 1 ∧ minor ≠ 2) then .error .unsupportedVersion
    else directives true handles rest
  | .tagDirective handle beginning :: rest => do
    directives hasVersion (← addHandle handles handle beginning) rest
  | rest => .ok (handles, rest)

/-- A document that opens with a marker, after its directives. -/
def markedDocument (r : EventReader) : Step := do
  let (handles, rest) ← directives false [] r.tokens
  match rest with
  | .documentStart :: rest =>
    return (none, { r with
      tokens := rest, expects := .documentContent, after := .documentEnd :: r.after
      handles := handles ++ defaultHandles })
  | _ => throw .expectedDocumentStart

/-- Whether a token belongs to what is around documents. -/
def isOutside : Option Token → Bool
  | some (.versionDirective _ _) | some (.tagDirective _ _) | some .documentStart
  | some .documentEnd | none => true
  | _ => false

/-- The beginning of the first document, whose marker may be missing. -/
def beginFirst (r : EventReader) : Step :=
  match r.next? with
  | none => .ok (none, r.expecting .finished)
  | some (.versionDirective _ _) | some (.tagDirective _ _) | some .documentStart =>
    r.markedDocument
  | some _ => .ok (none, { r with
      expects := .blockNode, after := .documentEnd :: r.after, handles := defaultHandles })

/-- The beginning of a further document. -/
def beginNext (r : EventReader) : Step :=
  let r := { r with tokens := r.tokens.dropWhile (· == Token.documentEnd) }
  match r.next? with
  | none => .ok (none, r.expecting .finished)
  | some _ => r.markedDocument

/-! ### Collections -/

/-- An entry of a block sequence, or its end. -/
def blockSequence (r : EventReader) : Step :=
  match r.next? with
  | some .blockEntry => r.skip.nodeUnless [.blockEntry, .blockEnd] true false .blockSequence
  | some .blockEnd => give .sequenceEnd r.skip.leave
  | _ => .error .expectedDash

/-- An entry of a sequence that is not indented, or its end. -/
def indentlessSequence (r : EventReader) : Step :=
  match r.next? with
  | some .blockEntry =>
    r.skip.nodeUnless [.blockEntry, .key, .value, .blockEnd] true false .indentlessSequence
  | _ => give .sequenceEnd r.leave

/-- A key of a block mapping, or its end. -/
def blockMappingKey (r : EventReader) : Step :=
  match r.next? with
  | some .key => r.skip.nodeUnless [.key, .value, .blockEnd] true true .blockMappingValue
  | some .blockEnd => give .mappingEnd r.skip.leave
  | _ => .error .expectedKey

/-- A value of a block mapping. -/
def blockMappingValue (r : EventReader) : Step :=
  match r.next? with
  | some .value => r.skip.nodeUnless [.key, .value, .blockEnd] true true .blockMappingKey
  | _ => give .nothing (r.expecting .blockMappingKey)

/-- The reader behind the comma that has to stand in front of a further entry. -/
def comma (r : EventReader) (isFirst : Bool) (fault : Fault) : Except Fault EventReader :=
  if isFirst then .ok r
  else if r.next? = some .flowEntry then .ok r.skip
  else .error fault

/-- An entry of a flow sequence, or its end. A key begins a mapping of one pair. -/
def flowSequence (r : EventReader) (isFirst : Bool) : Step := do
  if r.next? = some .flowSequenceEnd then give .sequenceEnd r.skip.leave
  else
    let r ← r.comma isFirst .expectedCommaOrBracket
    match r.next? with
    | some .key => give (.mappingStart none none) (r.skip.expecting .flowPairKey)
    | some .flowSequenceEnd => give .sequenceEnd r.skip.leave
    | _ => node { r with after := .flowSequence :: r.after } false false

/-- The key of a mapping of one pair. -/
def flowPairKey (r : EventReader) : Step :=
  if r.nextIsOneOf [.value, .flowEntry, .flowSequenceEnd] then
    give .nothing (r.skip.expecting .flowPairValue)
  else node { r with after := .flowPairValue :: r.after } false false

/-- The value of a mapping of one pair. -/
def flowPairValue (r : EventReader) : Step :=
  match r.next? with
  | some .value => r.skip.nodeUnless [.flowEntry, .flowSequenceEnd] false false .flowPairEnd
  | _ => give .nothing (r.expecting .flowPairEnd)

/-- A key of a flow mapping, or its end. -/
def flowMappingKey (r : EventReader) (isFirst : Bool) : Step := do
  if r.next? = some .flowMappingEnd then give .mappingEnd r.skip.leave
  else
    let r ← r.comma isFirst .expectedCommaOrBrace
    match r.next? with
    | some .key =>
      r.skip.nodeUnless [.value, .flowEntry, .flowMappingEnd] false false .flowMappingValue
    | some .flowMappingEnd => give .mappingEnd r.skip.leave
    | _ => node { r with after := .flowMappingNoValue :: r.after } false false

/-- A value of a flow mapping. -/
def flowMappingValue (r : EventReader) : Step :=
  match r.next? with
  | some .value => r.skip.nodeUnless [.flowEntry, .flowMappingEnd] false false .flowMappingKey
  | _ => give .nothing (r.expecting .flowMappingKey)

/-- One step. -/
def step (r : EventReader) : Step :=
  match r.expects with
  | .firstDocument => r.beginFirst
  | .document => r.beginNext
  | .documentContent =>
    if isOutside r.next? then give .nothing r.leave else r.node true false
  | .documentEnd =>
    let r := if r.next? = some .documentEnd then r.skip else r
    give .documentEnd { r with expects := .document, handles := [] }
  | .blockNode => r.node true false
  | .blockSequenceFirst => r.skip.blockSequence
  | .blockSequence => r.blockSequence
  | .indentlessSequence => r.indentlessSequence
  | .blockMappingFirst => r.skip.blockMappingKey
  | .blockMappingKey => r.blockMappingKey
  | .blockMappingValue => r.blockMappingValue
  | .flowSequenceFirst => r.skip.flowSequence true
  | .flowSequence => r.flowSequence false
  | .flowPairKey => r.flowPairKey
  | .flowPairValue => r.flowPairValue
  | .flowPairEnd => give .mappingEnd (r.expecting .flowSequence)
  | .flowMappingFirst => r.skip.flowMappingKey true
  | .flowMappingKey => r.flowMappingKey false
  | .flowMappingValue => r.flowMappingValue
  | .flowMappingNoValue => give .nothing (r.expecting .flowMappingKey)
  | .finished => .ok (none, r)

/-- All events, the last one first in the second argument. The first argument bounds the steps. -/
def run : Nat → List Event → EventReader → Except Fault (List Event)
  | 0, events, _ => .ok events.reverse
  | steps + 1, events, r =>
    if r.expects = .finished then .ok events.reverse
    else do
      let (event, r) ← r.step
      run steps (match event with
        | some event => event :: events
        | none => events) r

end EventReader

/-- The events that tokens stand for. A token stands for three of them at most, and a document has
one besides. -/
def events (tokens : List Token) : Except Fault (List Event) :=
  EventReader.run (4 * tokens.length + 8) [] { tokens }

end ApiContract.Yaml
