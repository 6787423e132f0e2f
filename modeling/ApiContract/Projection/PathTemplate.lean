import ApiContract.Identifier
import ApiContract.TypeScript.Syntax

/-!
# Path templates

A path such as `/pets/{id}` as an expression for an address: a template literal in which every
placeholder is the encoded value of a variable. A placeholder goes from an opening brace to the next
closing one; an opening brace without one after it is text.

A path is first cut into pieces, texts and placeholders, and the pieces then become the parts of a
literal. Pieces keep every character of the path, so the path can be put together from them again; a
path without placeholders is a plain text. The variable of a placeholder is its name in camel case,
made safe for a binding, as it is for a parameter of that name.
-/

namespace ApiContract

open TypeScript

/-- A piece of a path. -/
inductive PathPiece where
  | text (value : List Char)
  | placeholder (name : List Char)
  deriving DecidableEq, Repr

namespace PathPiece

/-- A text as pieces: none if it is empty. -/
def ofText (value : List Char) : List PathPiece := if value.isEmpty then [] else [text value]

/-- The pieces of a path. -/
def scan (path : List Char) : List PathPiece :=
  match _hOpen : path.dropWhile (· ≠ '\x7b') with
  | [] => ofText path
  | _ :: inside =>
    match _hClose : inside.dropWhile (· ≠ '\x7d') with
    -- A brace that is never closed is text like any other.
    | [] => ofText path
    | _ :: rest =>
      ofText (path.takeWhile (· ≠ '\x7b')) ++
        placeholder (inside.takeWhile (· ≠ '\x7d')) :: scan rest
termination_by path.length
decreasing_by
  have h₁ := (List.dropWhile_sublist (l := path) (· ≠ '\x7b')).length_le
  have h₂ := (List.dropWhile_sublist (l := inside) (· ≠ '\x7d')).length_le
  rw [_hOpen, List.length_cons] at h₁
  rw [_hClose, List.length_cons] at h₂
  omega

/-- The variable that holds the value of a placeholder. -/
def variableOf (name : List Char) : String := Identifier.binding (String.ofList name)

/-- A piece as part of a template literal. -/
def toPart : PathPiece → TemplatePart
  | text value => .text (String.ofList value)
  | placeholder name =>
    .hole ((Expr.identifier "encodeURIComponent").apply
      [(Expr.identifier "String").apply [.identifier (variableOf name)]])

end PathPiece

/-- A path as an expression; one without placeholders is a plain text. -/
def pathTemplate (path : String) : Expr :=
  match PathPiece.scan path.toList with
  | [] => .text ""
  | [.text value] => .text (String.ofList value)
  | pieces => .template (pieces.map PathPiece.toPart)

end ApiContract
