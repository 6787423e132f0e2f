import ApiContract.Identifier
import ApiContract.Json.Printer
import ApiContract.Text.Alphabetic
import ApiContract.Text.Basic
import ApiContract.TypeScript.Syntax

/-!
# TypeScript text

The layout: two spaces per level, a literal on one line if it fits into eighty bytes with its
indentation and otherwise one entry per line, a blank line between declarations. A level is that of
the line on which something begins.

## What the text has to keep

The printer is where trees become text that another program reads, so each kind of text in it has
its own escapes: comments (`escapeComment`), template literals (`escapeTemplate`), regular
expressions (`escapeRegex`) and strings, which are those of JSON. `Proofs.TypeScript` has a module
for each of them that says what is read back.

The only parentheses that do not belong to a call or to a list of parameters stand around an object
literal as the body of a function. Other operands are written as they are, and generated modules
have none for which that would be wrong; arrays are written as `Array<T>`, so that types need no
parentheses at all (`Proofs.TypeScript.Parentheses`).

## Levels

The level enters only in front of lines that the printer begins itself. Lines inside a literal or a
comment come from the tree, and a text at another level is the same up to indentation
(`Proofs.TypeScript.Indentation`).
-/

namespace ApiContract.TypeScript

/-- The width up to which a literal stays on one line. -/
def inlineWidth : Nat := 80

/-- The indentation of a level. -/
def pad (level : Nat) : String := Json.indent level

/-- A property name, in quotes unless it can do without. -/
def propertyKey (name : String) : String :=
  if Identifier.isPlainProperty name then name else Json.quote name

/-! ### Comments -/

/-- A text in which nothing ends a comment: `*\x2f` is written with a backslash between. -/
def escapeComment : List Char → List Char
  | '*' :: '/' :: rest => '*' :: '\\' :: '/' :: escapeComment rest
  | c :: rest => c :: escapeComment rest
  | [] => []

/-- A text as the content of a comment. -/
def commentText (s : String) : String := String.ofList (escapeComment s.toList)

/-- A line of a block comment. -/
def commentLine (level : Nat) (line : String) : String :=
  if line.isEmpty then pad level ++ " *\n" else pad level ++ " * " ++ line ++ "\n"

/-- A doc comment: on one line if the text has at most one, otherwise a block. -/
def docComment (doc : String) (level : Nat) : String :=
  let content := commentText doc
  match (Text.lines content).map Text.trimEnd with
  | first :: second :: rest =>
    pad level ++ "/**\n" ++ String.join ((first :: second :: rest).map (commentLine level)) ++
      pad level ++ " */\n"
  | _ => pad level ++ "/** " ++ Text.trim content ++ " */\n"

/-- A doc comment, if there is a text for it. -/
def docComment? (doc : Option String) (level : Nat) : String :=
  match doc with
  | some doc => docComment doc level
  | none => ""

/-! ### Types -/

mutual

/-- A type as text. -/
def TypeExpr.print (level : Nat) : TypeExpr → String
  | .keyword word => word
  | .literal value => value.compact
  | .named name => name
  | .generic name args => name ++ "<" ++ String.intercalate ", " (printTypes level args) ++ ">"
  | .array item => "Array<" ++ item.print level ++ ">"
  | .record value => "Record<string, " ++ value.print level ++ ">"
  | .object [] => "\x7b\x7d"
  | .object (member :: rest) =>
    "\x7b\n" ++ printMembers (level + 1) (member :: rest) ++ pad level ++ "\x7d"
  | .union members => String.intercalate " | " (printTypes level members)

/-- The texts of types. -/
def printTypes (level : Nat) : List TypeExpr → List String
  | [] => []
  | type :: rest => type.print level :: printTypes level rest

/-- Members of an object type, one per line, with their doc comments. -/
def printMembers (level : Nat) : List Member → String
  | [] => ""
  | ⟨name, type, isOptional, doc⟩ :: rest =>
    docComment? doc level ++ pad level ++ propertyKey name ++ (if isOptional then "?" else "") ++
      ": " ++ type.print level ++ ";\n" ++ printMembers level rest

end

/-- A type annotation, if there is a type. -/
def typeSuffix (type : Option TypeExpr) (level : Nat) : String :=
  match type with
  | some type => ": " ++ type.print level
  | none => ""

/-! ### Expressions -/

/-- A pattern inside a regular expression: a slash gets a backslash unless it has one. The first
argument says whether the character before is a backslash that escapes. -/
def escapeRegex : Bool → List Char → List Char
  | _, [] => []
  | escaped, c :: rest =>
    if c = '/' && !escaped then '\\' :: c :: escapeRegex false rest
    else c :: escapeRegex (c == '\\' && !escaped) rest

/-- A text inside a template literal: backslashes, backticks and the beginning of a hole get a
backslash. -/
def escapeTemplate : List Char → List Char
  | '\\' :: rest => '\\' :: '\\' :: escapeTemplate rest
  | '\x60' :: rest => '\\' :: '\x60' :: escapeTemplate rest
  | '$' :: '\x7b' :: rest => '\\' :: '$' :: '\x7b' :: escapeTemplate rest
  | c :: rest => c :: escapeTemplate rest
  | [] => []

/-- A bracketed list: on one line if that is flat and fits, otherwise one entry per line with a
comma behind each. `gap` stands inside the brackets of the one-line form. -/
def bracketed (opening closing gap : String) (entries : List String) (level : Nat) : String :=
  if entries.isEmpty then opening ++ closing
  else
    let inline := String.intercalate ", " entries
    if !inline.toList.contains '\n' && inline.utf8ByteSize + 2 * level ≤ inlineWidth then
      opening ++ gap ++ inline ++ gap ++ closing
    else
      opening ++ "\n" ++
        String.join (entries.map fun entry ↦ pad (level + 1) ++ entry ++ ",\n") ++
        pad level ++ closing

/-- Parameters as text. -/
def printParams (level : Nat) (params : List Param) : String :=
  String.intercalate ", " (params.map fun p ↦
    match p.type with
    | some type => p.name ++ (if p.isOptional then "?" else "") ++ ": " ++ type.print level
    | none => p.name)

/-- Whether an expression is an object literal. -/
def Expr.isObject : Expr → Bool
  | .object _ => true
  | _ => false

/-- Type arguments of a call. -/
def printTypeArgs (level : Nat) (types : List TypeExpr) : String :=
  if types.isEmpty then "" else "<" ++ String.intercalate ", " (printTypes level types) ++ ">"

/-- What stands between an operator and its operand: a space after a word. -/
def operatorGap (operator : String) : String :=
  if operator.toList.all Text.isAlphabetic then " " else ""

mutual

/-- An expression as text. An object literal as the body of a function stands in parentheses. -/
def Expr.print (level : Nat) : Expr → String
  | .identifier name => name
  | .literal value => value.compact
  | .regex pattern => "/" ++ String.ofList (escapeRegex false pattern.toList) ++ "/"
  | .template parts => "\x60" ++ printParts level parts ++ "\x60"
  | .array items => bracketed "[" "]" "" (printItems (level + 1) items) level
  | .object entries => bracketed "\x7b" "\x7d" " " (printEntries (level + 1) entries) level
  | .member target property => target.print level ++ "." ++ property
  | .index target key => target.print level ++ "[" ++ key.print level ++ "]"
  | .call callee typeArgs args =>
    callee.print level ++ printTypeArgs level typeArgs ++ "(" ++
      String.intercalate ", " (printItems level args) ++ ")"
  | .arrow params body =>
    "(" ++ printParams level params ++ ") => " ++
      (if body.isObject then "(" ++ body.print level ++ ")" else body.print level)
  | .unary operator operand => operator ++ operatorGap operator ++ operand.print level
  | .asConst value => value.print level ++ " as const"

/-- The texts of expressions. -/
def printItems (level : Nat) : List Expr → List String
  | [] => []
  | item :: rest => item.print level :: printItems level rest

/-- The parts of a template literal. -/
def printParts (level : Nat) : List TemplatePart → String
  | [] => ""
  | .text value :: rest => String.ofList (escapeTemplate value.toList) ++ printParts level rest
  | .hole value :: rest => "$\x7b" ++ value.print level ++ "\x7d" ++ printParts level rest

/-- The texts of the entries of an object literal. -/
def printEntries (level : Nat) : List Entry → List String
  | [] => []
  | .keyed key value :: rest =>
    (propertyKey key ++ ": " ++ value.print level) :: printEntries level rest
  | .shorthand name :: rest => name :: printEntries level rest
  | .spread value :: rest => ("..." ++ value.print level) :: printEntries level rest

end

/-! ### Statements and declarations -/

/-- The left-hand side of a `const`. -/
def Binding.print : Binding → String
  | .name local' => local'
  | .destructure fields rest =>
    let entries := fields.map fun (key, local') ↦
      if key == local' then local' else propertyKey key ++ ": " ++ local'
    let others := match rest with
      | some local' => ["..." ++ local']
      | none => []
    "\x7b " ++ String.intercalate ", " (entries ++ others) ++ " \x7d"

mutual

/-- A statement as text. -/
def Statement.print (level : Nat) : Statement → String
  | .const binding value =>
    pad level ++ "const " ++ binding.print ++ " = " ++ value.print level ++ ";\n"
  | .assign target value => pad level ++ target.print level ++ " = " ++ value.print level ++ ";\n"
  | .return value => pad level ++ "return " ++ value.print level ++ ";\n"
  | .expr value => pad level ++ value.print level ++ ";\n"
  | .if condition whenTrue whenFalse =>
    pad level ++ "if (" ++ condition.print level ++ ") \x7b\n" ++
      printStatements (level + 1) whenTrue ++ pad level ++ "\x7d" ++
      (match whenFalse with
        | [] => ""
        | first :: rest =>
          " else \x7b\n" ++ printStatements (level + 1) (first :: rest) ++ pad level ++ "\x7d") ++
      "\n"

/-- Statements, one after the other. -/
def printStatements (level : Nat) : List Statement → String
  | [] => ""
  | statement :: rest => statement.print level ++ printStatements level rest

end

namespace Declaration

/-- The rule above and below a heading. -/
def rule : String := "// " ++ String.ofList (List.replicate 77 '=')

/-- A declaration as text. -/
def print : Declaration → String
  | docBlock lines =>
    "/**\n" ++ String.join (lines.map fun line ↦ commentLine 0 (commentText line)) ++ " */\n"
  | banner title => rule ++ "\n// " ++ title ++ "\n" ++ rule ++ "\n"
  | .imports default names source typeOnly =>
    let clauses := default.toList ++
      if names.isEmpty then [] else ["\x7b " ++ String.intercalate ", " names ++ " \x7d"]
    "import " ++ (if typeOnly then "type " else "") ++ String.intercalate ", " clauses ++
      " from " ++ Json.quote source ++ ";\n"
  | .alias name type doc =>
    docComment? doc 0 ++ "export type " ++ name ++ " = " ++ type.print 0 ++ ";\n"
  | interface name members doc =>
    docComment? doc 0 ++ "export interface " ++ name ++ " \x7b\n" ++ printMembers 1 members ++
      "\x7d\n"
  | const name type value doc =>
    docComment? doc 0 ++ "export const " ++ name ++ typeSuffix type 0 ++ " = " ++ value.print 0 ++
      ";\n"
  | function name isAsync params returns body doc =>
    docComment? doc 0 ++ "export " ++ (if isAsync then "async " else "") ++ "function " ++ name ++
      "(" ++ printParams 0 params ++ ")" ++ typeSuffix returns 0 ++ " \x7b\n" ++
      printStatements 1 body ++ "\x7d\n"

/-- Whether a declaration is an import. -/
def isImport : Declaration → Bool
  | imports .. => true
  | _ => false

/-- The declarations after another one, each with a blank line in front unless it stands among
imports. -/
def printAfter (previous : Declaration) : List Declaration → String
  | [] => ""
  | d :: rest =>
    (if previous.isImport && d.isImport then "" else "\n") ++ d.print ++ printAfter d rest

end Declaration

/-- A whole module as text. -/
def printModule : List Declaration → String
  | [] => ""
  | d :: rest => d.print ++ Declaration.printAfter d rest

end ApiContract.TypeScript
