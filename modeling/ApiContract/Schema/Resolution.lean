import ApiContract.Json.Pointer
import ApiContract.Schema.Merge

/-!
# Resolving schemas

`resolveAt root levels` turns a fragment of a document into a `Schema`, with that many levels left:
every reference, property, item and branch uses one up, and at the ceiling the answer is the schema
that admits anything. So resolution is a recursion on the levels left and ends on every document,
however its references run. `resolve` counts depth from above, with the ceiling at
`maxResolveDepth`.

## What a fragment is

A fragment with `$ref` is its target, under the target's name, and nothing that stands beside `$ref`
counts. Otherwise `allOf`, `oneOf`, `anyOf` and a shape of its own are looked for, in this order,
and the first that is there decides (`ofFields`). The keywords that hold for every shape are read in
one place (`annotate`). The functions for the parts of a fragment are given the function that
resolves what is below, `child`, and do not recurse themselves; so each of them can be reasoned
about for any `child`.

## Chains of references

Parameters, bodies, responses and path items can stand behind references too. `dereference?` follows
such a chain as far as it may go, without resolving what is at its end.

## The resolver

The rest of a contract is built from what a `Resolver` says about fragments and objects. The
document's own resolver is one of them; the others serve to state that some answers do not matter.
-/

namespace ApiContract

/-- The greatest depth at which a fragment is still resolved. -/
def maxResolveDepth : Nat := 8

namespace Schema

/-- The type that a schema declares, and whether it also admits `null`; a list of types stands for
its first one other than `null`. -/
def declaredType (fields : List (String × Json)) : Option String × Bool :=
  match field? "type" fields with
  | some (.string name) => (some name, false)
  | some (.array names) =>
    let texts := names.filterMap Json.asString?
    (texts.find? (· != "null"), texts.contains "null")
  | _ => (none, false)

/-- The shape of a schema that declares no type: that of the values it lists. -/
def shapeOfValues (values : List Json) : Shape :=
  if values.isEmpty then .any
  else if values.all Json.isString then .string
  else if values.all Json.isInteger then .integer
  else if values.all Json.isNumber then .number
  else if values.all Json.isBool then .boolean
  else .any

/-- The shape that `enum`, or without it `const`, suggests. -/
def impliedShape (fields : List (String × Json)) : Shape :=
  match field? "enum" fields, field? "const" fields with
  | some (.array values), _ => shapeOfValues (values.filter fun v ↦ !v.isNull)
  | none, some value => shapeOfValues [value]
  | _, _ => .any

/-- A natural number at a field. -/
def natAt? (name : String) (fields : List (String × Json)) : Option Nat :=
  ((field? name fields).bind Json.asNumber?).bind Number.toNat?

/-- A number at a field, as a double. -/
def floatAt? (name : String) (fields : List (String × Json)) : Option Binary64 :=
  ((field? name fields).bind Json.asNumber?).map Number.toBinary64

/-- The limits that a schema states. -/
def statedConstraints (fields : List (String × Json)) : Constraints :=
  { minLength := natAt? "minLength" fields
    maxLength := natAt? "maxLength" fields
    pattern := (field? "pattern" fields).bind Json.asString?
    minimum := floatAt? "minimum" fields
    maximum := floatAt? "maximum" fields
    minItems := natAt? "minItems" fields
    maxItems := natAt? "maxItems" fields }

/-- Whether a schema lists `null` among its values. -/
def listsNull (fields : List (String × Json)) : Bool :=
  match field? "enum" fields with
  | some (.array values) => values.any Json.isNull
  | _ => false

/-- The values that a schema lists, other than `null`; `otherwise` if it lists none. -/
def listedValues (fields : List (String × Json)) (otherwise : List Json) : List Json :=
  match field? "enum" fields, field? "const" fields with
  | some (.array values), _ => values.filter fun v ↦ !v.isNull
  | none, some value => if value.isNull then otherwise else [value]
  | _, _ => otherwise

/-- Whether a schema says `nullable: true`. -/
def saysNullable (fields : List (String × Json)) : Bool :=
  match field? "nullable" fields with
  | some (.bool true) => true
  | _ => false

/-- A node with what the keywords for every shape say. -/
def annotate (fields : List (String × Json)) (node : Schema) : Schema :=
  let constraints := statedConstraints fields
  { node with
    format := ((field? "format" fields).bind Json.asString?).orElse fun _ ↦ node.format
    nullable := node.nullable || saysNullable fields || listsNull fields
    description :=
      ((field? "description" fields).bind Json.asString?).orElse fun _ ↦ node.description
    enumValues := listedValues fields node.enumValues
    constraints := if constraints.isEmpty then node.constraints else constraints }

/-- The properties of an object schema, given how to resolve one. -/
def declaredProperties (child : Json → Schema) (fields : List (String × Json)) : List Property :=
  match field? "properties" fields with
  | some (.object entries) => entries.map fun entry ↦ ⟨entry.1, child entry.2⟩
  | _ => []

/-- The required names of an object schema. -/
def declaredRequired (fields : List (String × Json)) : NameSet :=
  match field? "required" fields with
  | some (.array names) => NameSet.ofList (names.filterMap Json.asString?)
  | _ => ∅

/-- What an object schema admits beside its properties, given how to resolve it. -/
def declaredAdditional (child : Json → Schema) (fields : List (String × Json)) : Option Schema :=
  match field? "additionalProperties" fields with
  | some (.object entries) => some (child (.object entries))
  | some (.bool true) => some any
  | _ => none

/-- The shape of an object schema. -/
def objectShape (child : Json → Schema) (fields : List (String × Json)) : Shape :=
  .object (declaredProperties child fields) (declaredRequired fields)
    (declaredAdditional child fields)

/-- The shape of a schema without composition. -/
def typedShape (child : Json → Schema) (fields : List (String × Json)) : Shape :=
  match (declaredType fields).1 with
  | some "string" => .string
  | some "integer" => .integer
  | some "number" => .number
  | some "boolean" => .boolean
  | some "array" => .array (((field? "items" fields).map child).getD any)
  | some "object" => objectShape child fields
  | some _ => .any
  | none =>
    -- What an object alone can have says that it is one, before listed values are looked at.
    if hasField "properties" fields || hasField "additionalProperties" fields then
      objectShape child fields
    else impliedShape fields

/-- A schema with `allOf`. A single branch without properties or required names beside it stays the
node that it is, name included; otherwise the branches are merged, what stands beside them last. -/
def composed (child : Json → Schema) (fields : List (String × Json)) (branches : List Json) :
    Schema :=
  let parts := branches.map child
  let hasSiblings := hasField "properties" fields || hasField "required" fields
  match parts, hasSiblings with
  | [only], false => annotate fields only
  | _, false => annotate fields (mergeAllOf parts)
  | _, true => annotate fields (mergeAllOf (parts ++ [{ shape := objectShape child fields }]))

/-- A schema that is no reference, given how to resolve what is below it. -/
def ofFields (child : Json → Schema) (fields : List (String × Json)) : Schema :=
  match field? "allOf" fields with
  | some (.array branches) => composed child fields branches
  | _ =>
    match field? "oneOf" fields with
    | some (.array branches) => annotate fields { shape := .union (branches.map child) true }
    | _ =>
      match field? "anyOf" fields with
      | some (.array branches) => annotate fields { shape := .union (branches.map child) false }
      | _ =>
        annotate fields
          { shape := typedShape child fields, nullable := (declaredType fields).2 }

/-- The target of a reference under its name, given how many levels are left and how to resolve the
target; the schema that admits anything if no level is left or there is no target. -/
def ofReference (root : Json) (levels : Nat) (child : Json → Schema) (reference : String) :
    Schema :=
  if levels = 0 then any
  else
    match Pointer.resolve? root reference with
    | some target => { child target with refName := Pointer.referenceName? reference }
    | none => any

/-- Resolves a fragment with so many levels left. -/
def resolveAt (root : Json) : Nat → Json → Schema
  | 0, _ => any
  | levels + 1, value =>
    match value with
    | .object fields =>
      match field? "$ref" fields with
      | some (.string reference) => ofReference root levels (resolveAt root levels) reference
      | _ => ofFields (resolveAt root levels) fields
    | _ => any

/-- Resolves a fragment at a depth. -/
def resolve (root value : Json) (depth : Nat) : Schema :=
  resolveAt root (maxResolveDepth + 1 - depth) value

/-- Resolves a reference at a depth. -/
def resolveReference (root : Json) (reference : String) (depth : Nat) : Schema :=
  let levels := maxResolveDepth - depth
  ofReference root levels (resolveAt root levels) reference

end Schema

/-- The value at the end of a chain of references, each given by `$ref`; `none` if a reference has
no target or the chain is longer than the count allows. -/
def followReferences (root : Json) : Nat → Json → Option Json
  | 0, _ => none
  | n + 1, value =>
    match value.stringAt? "$ref" with
    | some reference => (Pointer.resolve? root reference).bind (followReferences root n)
    | none => some value

/-- The object that a value stands for, through at most `maxResolveDepth` references. Building a
contract and linting a document each follow chains of references in a loop of their own; the two
loops agree in every step and in how far they go, and this definition stands for both. -/
def dereference? (root value : Json) : Option Json :=
  followReferences root (maxResolveDepth + 1) value

/-- What the values of a document stand for. -/
structure Resolver where
  /-- The schema that a fragment describes. -/
  schema : Json → Schema
  /-- The object that a value stands for; `none` if its references lead nowhere. -/
  object? : Json → Option Json

/-- The resolver that follows the references of a document. -/
def Resolver.ofDocument (root : Json) : Resolver where
  schema value := Schema.resolve root value 0
  object? := dereference? root

end ApiContract
