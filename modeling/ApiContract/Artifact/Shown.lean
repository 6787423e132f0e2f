import ApiContract.Json.Printer
import ApiContract.Spec.Basic
import ApiContract.Text.Quoted
import ApiContract.TypeScript.Syntax

/-!
# Values in messages

The text by which a message shows a value that a helper should not have given: on one line, with the
name of every constructor and field and with texts in quotes, so that nothing about the value is
hidden.

The values come first: what a helper is asked about and what it answers (`HelperArgument`,
`HelperValue`). The text follows their structure, down to resolved schemas, document trees and
expressions; the names in it are those under which the parts of such a value are recorded, not those
of a contract or of generated code. Each list has a function of its own beside that of its items, so
that all of them are structural.
-/

namespace ApiContract

/-- What a helper is asked about. -/
inductive HelperArgument where
  | text (value : String)
  | operation (op : Operation)

/-- What a helper answers. -/
inductive HelperValue where
  | text (value : String)
  | flag (value : Bool)
  | expr (value : TypeScript.Expr)
  | segments (value : List String)
  | response (value : Option Response)

namespace Shown

/-! ### Building blocks -/

/-- A constructor with its arguments. -/
def call (name : String) (args : List String) : String :=
  name ++ "(" ++ String.intercalate ", " args ++ ")"

/-- A record with its fields. -/
def fields (name : String) (entries : List (String × String)) : String :=
  name ++ " \x7b " ++
    String.intercalate ", " (entries.map fun (key, value) ↦ key ++ ": " ++ value) ++ " \x7d"

/-- A list. -/
def items (entries : List String) : String := "[" ++ String.intercalate ", " entries ++ "]"

/-- A set, or the entries of a map. -/
def braced (entries : List String) : String :=
  "\x7b" ++ String.intercalate ", " entries ++ "\x7d"

/-- A value that may be missing. -/
def option {α : Type} (show' : α → String) : Option α → String
  | none => "None"
  | some value => call "Some" [show' value]

/-- A truth value. -/
def bool (value : Bool) : String := if value then "true" else "false"

/-! ### Documents and schemas -/

mutual

/-- A document tree. -/
def json : Json → String
  | .null => "Null"
  | .bool value => call "Bool" [bool value]
  | .number value => call "Number" [value.render]
  | .string value => call "String" [Text.quoted value]
  | .array values => "Array " ++ items (jsonItems values)
  | .object entries => "Object " ++ braced (jsonFields entries)

/-- Items of a document tree. -/
def jsonItems : List Json → List String
  | [] => []
  | value :: rest => json value :: jsonItems rest

/-- Fields of a document tree. -/
def jsonFields : List (String × Json) → List String
  | [] => []
  | (key, value) :: rest => (Text.quoted key ++ ": " ++ json value) :: jsonFields rest

end

/-- A double. -/
def float (value : Binary64) : String := FloatLayout.diagnostic.render value

/-- Limits. -/
def constraints (c : Constraints) : String :=
  fields "Constraints" [
    ("min_length", option toString c.minLength), ("max_length", option toString c.maxLength),
    ("pattern", option Text.quoted c.pattern), ("minimum", option float c.minimum),
    ("maximum", option float c.maximum), ("min_items", option toString c.minItems),
    ("max_items", option toString c.maxItems)]

mutual

/-- A schema. -/
def schema : Schema → String
  | ⟨kind, format, nullable, description, enumValues, refName, limits⟩ =>
    fields "ParsedSchema" [("kind", shape kind), ("format", option Text.quoted format),
      ("nullable", bool nullable), ("description", option Text.quoted description),
      ("enum_values", items (enumValues.map json)), ("ref_name", option Text.quoted refName),
      ("constraints", constraints limits)]

/-- A shape. -/
def shape : Shape → String
  | .any => "Any"
  | .string => "String"
  | .integer => "Integer"
  | .number => "Number"
  | .boolean => "Boolean"
  | .array element => fields "Array" [("items", schema element)]
  | .object members required additional =>
    fields "Object" [("properties", items (properties members)),
      ("required", braced (required.toList.map Text.quoted)),
      ("additional", optionalSchema additional)]
  | .union variants exclusive =>
    fields "Union" [("variants", items (schemas variants)), ("exclusive", bool exclusive)]

/-- Properties. -/
def properties : List Property → List String
  | [] => []
  | ⟨name, value⟩ :: rest =>
    fields "ParsedProperty" [("name", Text.quoted name), ("schema", schema value)] ::
      properties rest

/-- Schemas. -/
def schemas : List Schema → List String
  | [] => []
  | value :: rest => schema value :: schemas rest

/-- A schema that may be missing. -/
def optionalSchema : Option Schema → String
  | none => "None"
  | some value => call "Some" [schema value]

end

/-- A response. -/
def response (r : Response) : String :=
  fields "ParsedResponse" [("status", Text.quoted r.status),
    ("description", option Text.quoted r.description),
    ("content_type", option Text.quoted r.contentType), ("schema", optionalSchema r.schema)]

/-! ### Types and expressions -/

open TypeScript

mutual

/-- A type. -/
def type : TypeExpr → String
  | .keyword word => call "Keyword" [Text.quoted word]
  | .literal value => call "Literal" [json value]
  | .named name => call "Named" [Text.quoted name]
  | .generic name args =>
    fields "Generic" [("name", Text.quoted name), ("args", items (types args))]
  | .array element => call "Array" [type element]
  | .record value => call "Record" [type value]
  | .object entries => call "Object" [items (members entries)]
  | .union entries => call "Union" [items (types entries)]

/-- Types. -/
def types : List TypeExpr → List String
  | [] => []
  | value :: rest => type value :: types rest

/-- Members of an object type. -/
def members : List Member → List String
  | [] => []
  | ⟨name, value, isOptional, doc⟩ :: rest =>
    fields "Field" [("name", Text.quoted name), ("ty", type value), ("optional", bool isOptional),
      ("doc", option Text.quoted doc)] :: members rest

end

/-- A parameter. -/
def param (p : Param) : String :=
  fields "Param" [("name", Text.quoted p.name), ("ty", option type p.type),
    ("optional", bool p.isOptional)]

mutual

/-- An expression. -/
def expr : Expr → String
  | .identifier name => call "Ident" [Text.quoted name]
  | .literal value => call "Literal" [json value]
  | .regex pattern => call "Regex" [Text.quoted pattern]
  | .template pieces => call "Template" [items (parts pieces)]
  | .array values => call "Array" [items (exprs values)]
  | .object values => call "Object" [items (entries values)]
  | .member target property =>
    fields "Member" [("object", expr target), ("property", Text.quoted property)]
  | .index target key => fields "Index" [("object", expr target), ("index", expr key)]
  | .call callee typeArgs args =>
    fields "Call" [("callee", expr callee), ("type_args", items (types typeArgs)),
      ("args", items (exprs args))]
  | .arrow params body =>
    fields "Arrow" [("params", items (params.map param)), ("body", expr body)]
  | .unary operator operand =>
    fields "Prefix" [("op", Text.quoted operator), ("operand", expr operand)]
  | .asConst value => call "AsConst" [expr value]

/-- Expressions. -/
def exprs : List Expr → List String
  | [] => []
  | value :: rest => expr value :: exprs rest

/-- Parts of a template literal. -/
def parts : List TemplatePart → List String
  | [] => []
  | .text value :: rest => call "Text" [Text.quoted value] :: parts rest
  | .hole value :: rest => call "Expr" [expr value] :: parts rest

/-- Entries of an object literal. -/
def entries : List Entry → List String
  | [] => []
  | .keyed key value :: rest => call "KeyValue" [Text.quoted key, expr value] :: entries rest
  | .shorthand name :: rest => call "Shorthand" [Text.quoted name] :: entries rest
  | .spread value :: rest => call "Spread" [expr value] :: entries rest

end

end Shown

/-- A helper's value as a message shows it. -/
def HelperValue.shown : HelperValue → String
  | text value => Shown.call "Text" [Text.quoted value]
  | flag value => Shown.call "Flag" [Shown.bool value]
  | expr value => Shown.call "Expr" [Shown.expr value]
  | segments value => Shown.call "Segments" [Shown.items (value.map Text.quoted)]
  | response value => Shown.call "Response" [Shown.option Shown.response value]

end ApiContract
