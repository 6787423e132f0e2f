import ApiContract.Json.Basic

/-!
# TypeScript modules as data

Types, expressions, statements and declarations, as far as generated modules have them. Generated
code is built as such a tree, and only the printer turns it into text.

The trees are those of the generated code and not of the language: an operator, a keyword or a name
is a text, and a tree can be built that stands for no program. What is needed to speak of generated
code are its names, its uses of them and its structure, and each of them is read off the tree
(`Proofs.TypeScript`).

Two operations on types keep unions flat where they can: `orNull` adds a member to a union, and
`ofMembers` makes no union of a single type.
-/

namespace ApiContract.TypeScript

/-! ### Types -/

mutual

/-- A type. -/
inductive TypeExpr where
  /-- A built-in type: `string`, `number`, `boolean`, `unknown`, `null`, `void`. -/
  | keyword (word : String)
  /-- The type of one value. -/
  | literal (value : Json)
  /-- A declared type. -/
  | named (name : String)
  /-- A declared type with arguments: `Name<A, B>`. -/
  | generic (name : String) (args : List TypeExpr)
  /-- `Array<T>`. -/
  | array (item : TypeExpr)
  /-- `Record<string, T>`. -/
  | record (value : TypeExpr)
  /-- An object type with its members. -/
  | object (members : List Member)
  /-- `A | B`. -/
  | union (members : List TypeExpr)

/-- A member of an object type or interface. -/
structure Member where
  name : String
  type : TypeExpr
  isOptional : Bool
  doc : Option String

end

namespace TypeExpr

instance : Inhabited TypeExpr := ⟨keyword "unknown"⟩
instance : Inhabited Member := ⟨⟨"", default, false, none⟩⟩

/-- The type of one text. -/
def text (value : String) : TypeExpr := literal (.string value)

/-- `T | null`; a union gets one more member. -/
def orNull : TypeExpr → TypeExpr
  | union members => union (members ++ [keyword "null"])
  | other => union [other, keyword "null"]

/-- The union of several types; a single one stands for itself. -/
def ofMembers : List TypeExpr → TypeExpr
  | [only] => only
  | members => union members

end TypeExpr

/-! ### Expressions -/

/-- A parameter of a function; without a type it is written by its name alone. -/
structure Param where
  name : String
  type : Option TypeExpr
  isOptional : Bool

/-- A parameter that must be given. -/
def Param.required (name : String) (type : TypeExpr) : Param := ⟨name, some type, false⟩

/-- A parameter that may be left out. -/
def Param.optional (name : String) (type : TypeExpr) : Param := ⟨name, some type, true⟩

mutual

/-- An expression. -/
inductive Expr where
  | identifier (name : String)
  | literal (value : Json)
  /-- A regular expression, given by its pattern. -/
  | regex (pattern : String)
  /-- A template literal. -/
  | template (parts : List TemplatePart)
  | array (items : List Expr)
  | object (entries : List Entry)
  /-- `target.property`. -/
  | member (target : Expr) (property : String)
  /-- `target[key]`. -/
  | index (target : Expr) (key : Expr)
  /-- `callee<types>(args)`. -/
  | call (callee : Expr) (typeArgs : List TypeExpr) (args : List Expr)
  /-- `(params) => body`. -/
  | arrow (params : List Param) (body : Expr)
  /-- An operator in front of an operand: `await x`, `delete x`, `!x`. -/
  | unary (operator : String) (operand : Expr)
  /-- `value as const`. -/
  | asConst (value : Expr)

/-- A part of a template literal. -/
inductive TemplatePart where
  | text (value : String)
  | hole (value : Expr)

/-- An entry of an object literal. -/
inductive Entry where
  | keyed (key : String) (value : Expr)
  /-- `name` for `name: name`. -/
  | shorthand (name : String)
  /-- `...value`. -/
  | spread (value : Expr)

end

namespace Expr

instance : Inhabited Expr := ⟨identifier "undefined"⟩

/-- A text. -/
def text (value : String) : Expr := literal (.string value)

/-- A truth value. -/
def bool (value : Bool) : Expr := literal (.bool value)

/-- A number; a whole one below `10 ^ 15` has no fraction. -/
def ofBinary64 (value : Binary64) : Expr :=
  match value.toInt? with
  | some n =>
    if n.natAbs < Nat.pow 10 15 then literal (.number (.int n))
    else literal (.number (.float value))
  | none => literal (.number (.float value))

/-- A number that is read from text and may not be finite; then it is `null`. -/
def ofBinary64? : Option Binary64 → Expr
  | some value => ofBinary64 value
  | none => literal .null

/-- A call without type arguments. -/
def apply (callee : Expr) (args : List Expr) : Expr := call callee [] args

/-- `target.name(args)`. -/
def method (target : Expr) (name : String) (args : List Expr) : Expr :=
  (member target name).apply args

/-- The name of the outermost method call. -/
def outerMethod? : Expr → Option String
  | call (member _ property) _ _ => some property
  | _ => none

/-- What the outermost method is called on. -/
def receiver? : Expr → Option Expr
  | call (member target _) _ _ => some target
  | _ => none

end Expr

/-! ### Statements and declarations -/

/-- The left-hand side of a `const`. -/
inductive Binding where
  | name (binder : String)
  /-- A pattern that takes properties out of an object, each with its local name, and may keep the
  others under a name. -/
  | destructure (fields : List (String × String)) (rest : Option String)

/-- A statement. -/
inductive Statement where
  | const (binding : Binding) (value : Expr)
  | assign (target value : Expr)
  | return (value : Expr)
  | expr (value : Expr)
  | if (condition : Expr) (whenTrue whenFalse : List Statement)

instance : Inhabited Statement := ⟨.expr default⟩

/-- A declaration at the top of a module. -/
inductive Declaration where
  /-- A block comment. -/
  | docBlock (lines : List String)
  /-- The heading of a part of the module. -/
  | banner (title : String)
  | imports (default : Option String) (names : List String) (source : String) (typeOnly : Bool)
  | alias (name : String) (type : TypeExpr) (doc : Option String)
  | interface (name : String) (members : List Member) (doc : Option String)
  | const (name : String) (type : Option TypeExpr) (value : Expr) (doc : Option String)
  | function (name : String) (isAsync : Bool) (params : List Param) (returns : Option TypeExpr)
      (body : List Statement) (doc : Option String)

end ApiContract.TypeScript
