import ApiContract.Projection.Type

/-!
# Validators of schemas

The expression that builds a validator for the values that a schema admits, in the vocabulary of the
`zod` library: `z.string()`, `z.object(..)` and so on, refined by method calls. A named schema has
the validator declared under its name; a name in the given set is referred to by `z.lazy`, because
its declaration may come later.

## Structure

The cases are those of `Schema.toType`, in the same order, so that a validator and a type can be
compared case by case (`Proofs.Projection.Inference`). What a type does not show, limits and formats
of texts, becomes refinements (`refine`), a list of method calls that is folded over the base.
`null` is admitted behind the refinements (`orNull`), and a property may be missing behind that
(`orMissing`).

Limits are printed as numbers, and a pattern as the literal of a regular expression.
-/

namespace ApiContract

open TypeScript

/-- The name under which the validator of a component is declared. -/
def validatorName (component : String) : String := typeName component ++ "Schema"

namespace Validator

/-- A call on the library. -/
def make (method : String) (args : List Expr) : Expr := (Expr.identifier "z").method method args

/-- The validator of a component. -/
def reference (lazy : NameSet) (component : String) : Expr :=
  let target := Expr.identifier (validatorName component)
  if lazy.contains component then make "lazy" [.arrow [] target] else target

/-- The validator of a list of values with at least one. -/
def oneOf (values : List Json) : Expr :=
  match values with
  | [value] => make "literal" [.literal value]
  | values =>
    if values.all Json.isString then make "enum" [.array (values.map .literal)]
    else make "union" [.array (values.map fun value ↦ make "literal" [.literal value])]

/-- A validator refined by method calls, one after the other. -/
def refine (base : Expr) (refinements : List (String × List Expr)) : Expr :=
  refinements.foldl (fun validator (method, args) ↦ validator.method method args) base

/-- A refinement for a limit that may be there. -/
def limit (method : String) (value : Option Binary64) : List (String × List Expr) :=
  match value with
  | some value => [(method, [.ofBinary64 value])]
  | none => []

/-- The refinement for a format of texts; a format without one has none. -/
def formatRefinement (format : Option String) : List (String × List Expr) :=
  match format with
  | some "email" => [("email", [])]
  | some "uuid" => [("uuid", [])]
  | some "uri" | some "url" => [("url", [])]
  | some "date-time" => [("datetime", [])]
  | _ => []

/-- The refinements of a text's validator. -/
def textRefinements (format : Option String) (c : Constraints) : List (String × List Expr) :=
  formatRefinement format ++
    limit "min" (c.minLength.map Binary64.ofNat) ++ limit "max" (c.maxLength.map Binary64.ofNat) ++
    (match c.pattern with
      | some pattern => [("regex", [.regex pattern])]
      | none => [])

/-- The refinements of a number's validator. -/
def numberRefinements (c : Constraints) : List (String × List Expr) :=
  limit "min" c.minimum ++ limit "max" c.maximum

/-- The refinements of a list's validator. -/
def listRefinements (c : Constraints) : List (String × List Expr) :=
  limit "min" (c.minItems.map Binary64.ofNat) ++ limit "max" (c.maxItems.map Binary64.ofNat)

/-- A validator that admits `null` too, if it is so marked. -/
def orNull (nullable : Bool) (validator : Expr) : Expr :=
  if nullable then validator.method "nullable" [] else validator

/-- A validator of a property that may be missing, unless it is required. -/
def orMissing (required : Bool) (validator : Expr) : Expr :=
  if required then validator else validator.method "optional" []

end Validator

namespace Schema

open Validator

mutual

/-- The validator of the values that a schema admits; the names in the set are referred to
lazily. -/
def toValidator (lazy : NameSet) : Schema → Expr
  | ⟨shape, format, nullable, _, enumValues, refName, constraints⟩ =>
    orNull nullable <|
      -- A reference hides what its target says, listed values hide the shape.
      match refName, listed enumValues with
      | some name, _ => reference lazy name
      | none, value :: rest => oneOf (value :: rest)
      | none, [] => shapeValidator lazy format constraints shape

/-- The validator of the values of a shape, with the refinements that the shape admits. -/
def shapeValidator (lazy : NameSet) (format : Option String) (c : Constraints) : Shape → Expr
  | .any => make "unknown" []
  | .string => refine (make "string" []) (textRefinements format c)
  | .integer => refine (make "number" []) (("int", []) :: numberRefinements c)
  | .number => refine (make "number" []) (numberRefinements c)
  | .boolean => make "boolean" []
  | .array items => refine (make "array" [items.toValidator lazy]) (listRefinements c)
  | .object [] _ additional => make "record" [make "string" [], valueValidator lazy additional]
  | .object (property :: rest) required _ =>
    make "object" [.object (propertyEntries lazy required (property :: rest))]
  | .union [] _ => make "unknown" []
  | .union [variant] _ => variant.toValidator lazy
  | .union (first :: second :: rest) _ =>
    make "union" [.array (variantValidators lazy (first :: second :: rest))]

/-- The validator of the values that an object without properties admits. -/
def valueValidator (lazy : NameSet) : Option Schema → Expr
  | some schema => schema.toValidator lazy
  | none => make "unknown" []

/-- The entries for the properties of an object. -/
def propertyEntries (lazy required : NameSet) : List Property → List Entry
  | [] => []
  | ⟨name, schema⟩ :: rest =>
    .keyed name (orMissing (required.contains name) (schema.toValidator lazy)) ::
      propertyEntries lazy required rest

/-- The validators of several schemas. -/
def variantValidators (lazy : NameSet) : List Schema → List Expr
  | [] => []
  | variant :: rest => variant.toValidator lazy :: variantValidators lazy rest

end

end Schema

end ApiContract
