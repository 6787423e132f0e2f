import ApiContract.Yaml.Event
import ApiContract.Yaml.Scalar

/-!
# Values of documents

The value that the events of a document stand for. An alias stands for the node that its anchor
marks, wherever the anchor is and however often it is referred to. So that a document cannot stand
for a value without end, collections may be nested 128 deep, aliases counted in, and aliases may be
followed a hundred times as often as the document has events.

## Anchors

Anchors are found first, in one pass over the events (`Anchors.meetAll`): an alias means the last
anchor of its name in front of it, and an anchor that comes up again takes another node. Then the
value is read from the events by their places, jumping to the anchored node at an alias and back
behind it; the number of jumps is handed on from node to node. An alias to a node that it is part of
runs into one of the two bounds.

A text has one document; a second one is a fault.
-/

namespace ApiContract.Yaml

/-- A document: its events, and for each alias and anchor the node that is meant. -/
structure Document where
  events : Array Event
  /-- The number that an alias refers to, by the place of the alias. -/
  aliases : List (Nat × Nat)
  /-- The place of the node with a number; of several entries the first counts. -/
  nodes : List (Nat × Nat)
  /-- What a node without parts stands for, by its tag, its text and whether it is plain. -/
  scalar : ScalarRule

/-- The anchors and aliases that are met so far. -/
structure Anchors where
  /-- The number of each anchor; an anchor that is set anew gets a new number. -/
  numbers : List (String × Nat) := []
  aliases : List (Nat × Nat) := []
  nodes : List (Nat × Nat) := []

namespace Anchors

/-- Sets an anchor to the node at a place. Its number is the count of anchors with distinct
names. -/
def set (a : Anchors) (name : String) (place : Nat) : Anchors :=
  -- Once an anchor was set anew, this can be a number that is in use; then the later node counts.
  let number := a.numbers.length
  { a with
    numbers := (name, number) :: a.numbers.filter fun entry ↦ entry.1 ≠ name
    nodes := (number, place) :: a.nodes }

/-- What the event at a place does to the anchors. -/
def meet (a : Anchors) (place : Nat) : Event → Except Fault Anchors
  | .alias name =>
    match a.numbers.lookup name with
    | some number => .ok { a with aliases := (place, number) :: a.aliases }
    | none => .error .unknownAnchor
  | .scalar (some name) _ _ _ | .sequenceStart (some name) _ | .mappingStart (some name) _ =>
    .ok (a.set name place)
  | _ => .ok a

end Anchors

/-- The document of a list of events; the first argument says at which place the list stands. -/
def Anchors.meetAll (place : Nat) (a : Anchors) : List Event → Except Fault Anchors
  | [] => .ok a
  | event :: rest => do meetAll (place + 1) (← a.meet place event) rest

/-- A document of its events. -/
def Document.ofEvents (scalar : ScalarRule) (events : List Event) : Except Fault Document := do
  let anchors ← Anchors.meetAll 0 {} events
  return { events := events.toArray, aliases := anchors.aliases, nodes := anchors.nodes, scalar }

namespace Document

/-- The number of times that aliases may be followed. -/
def jumpLimit (d : Document) : Nat := 100 * d.events.size

/-- A value, the place behind its node, and how many aliases were followed. -/
abbrev Reading (α : Type) := α × Nat × Nat

/-- The items of a sequence from a place on. The first argument bounds their number. -/
def items (d : Document) (node : Nat → Nat → Except Fault (Reading Value)) :
    Nat → List Value → Nat → Nat → Except Fault (Reading (List Value))
  | 0, _, _, _ => .error .unexpectedEnd
  | count + 1, before, place, jumps =>
    if d.events[place]? = some .sequenceEnd then .ok (before.reverse, place + 1, jumps)
    else do
      let (value, place, jumps) ← node place jumps
      items d node count (value :: before) place jumps

/-- The entries of a mapping from a place on. -/
def entries (d : Document) (node : Nat → Nat → Except Fault (Reading Value)) :
    Nat → List (Value × Value) → Nat → Nat → Except Fault (Reading (List (Value × Value)))
  | 0, _, _, _ => .error .unexpectedEnd
  | count + 1, before, place, jumps =>
    if d.events[place]? = some .mappingEnd then .ok (before.reverse, place + 1, jumps)
    else do
      let (key, place, jumps) ← node place jumps
      -- Before its value is read, so a fault in the value of a repeated key is not what is told.
      if before.any fun entry ↦ entry.1.same key then throw .duplicateKey
      let (value, place, jumps) ← node place jumps
      entries d node count ((key, value) :: before) place jumps

/-- The place of the node that is meant at a place: the place itself, or the anchored node if an
alias stands there. -/
def target (d : Document) (place jumps : Nat) : Except Fault (Nat × Nat × Bool) :=
  match d.events[place]? with
  | some (.alias _) =>
    if d.jumpLimit ≤ jumps then .error .repeatedTooOften
    else
      match (d.aliases.lookup place).bind (d.nodes.lookup ·) with
      | some place => .ok (place, jumps + 1, true)
      | none => .error .unknownAnchor
  | _ => .ok (place, jumps, false)

/-- The value of the node at a place, with so many levels of collections below it. -/
def node (d : Document) : Nat → Nat → Nat → Except Fault (Reading Value)
  | 0, place, jumps => do
    let (at', jumps, _) ← d.target place jumps
    match d.events[at']? with
    | some (.scalar _ tag text isPlain) =>
      return (← d.scalar tag text isPlain, place + 1, jumps)
    | _ => throw .nestedTooDeeply
  | levels + 1, place, jumps => do
    let (at', jumps, isAlias) ← d.target place jumps
    -- After an alias the reading goes on behind it, wherever its node ends.
    let behind (ending : Nat) : Nat := if isAlias then place + 1 else ending
    match d.events[at']? with
    | some (.scalar _ tag text isPlain) =>
      return (← d.scalar tag text isPlain, place + 1, jumps)
    | some (.sequenceStart _ tag) =>
      let (values, ending, jumps) ← d.items (node d levels) (d.events.size + 1) [] (at' + 1) jumps
      return (← tagged tag (.sequence values), behind ending, jumps)
    | some (.mappingStart _ tag) =>
      let (values, ending, jumps) ← d.entries (node d levels) (d.events.size + 1) [] (at' + 1) jumps
      return (← tagged tag (.mapping values), behind ending, jumps)
    | _ => throw .unexpectedEnd

/-- How deep collections may be nested. -/
def nestingLimit : Nat := 128

/-- The value of a document; that of an empty one is `null`. -/
def value (d : Document) : Except Fault Value :=
  if d.events.isEmpty then .ok .null
  else do
    let (value, _, _) ← d.node nestingLimit 0 0
    return value

end Document

/-- The value of the only document of a text. -/
def valueOfEvents (scalar : ScalarRule) (events : List Event) : Except Fault Value := do
  match events.span (· ≠ .documentEnd) with
  | (first, []) => (← Document.ofEvents scalar first).value
  | (first, _ :: []) => (← Document.ofEvents scalar first).value
  | _ => throw .severalDocuments

end ApiContract.Yaml
