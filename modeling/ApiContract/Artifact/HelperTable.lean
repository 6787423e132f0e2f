import ApiContract.Artifact.Shown
import ApiContract.Failure
import ApiContract.Projection.PathTemplate

/-!
# Helper tables

Artifacts take their naming rules and what they want to know of an operation from a table of named
functions. Asking for a name that the table does not hold is a failure, and so is an argument or a
result of the wrong kind. `HelperTable.standard` holds what every artifact needs.

## Representation

A helper is a partial function on arguments of two kinds, texts and operations; it gives a value of
one of five kinds (`HelperArgument`, `HelperValue` in `Artifact.Shown`). A table lists its helpers
in the order of their names, each name once, so that a table does not depend on the order in which
helpers were registered under distinct names.

## Asking

`text`, `flag`, `expr`, `segments` and `response` ask for a value of one kind. They differ in
nothing but the kind; a value of another kind is shown in the message of the failure. With the
standard table none of these failures can occur, and the artifacts depend on it by these questions
alone: `Proofs.Artifact.Surface` has one equation for each name that is asked for.
-/

namespace ApiContract

/-- A helper; `none` if the argument is of a kind that it does not take. -/
abbrev Helper := HelperArgument → Option HelperValue

namespace Helper

/-- The helper that changes a text. -/
def ofText (change : String → String) : Helper
  | .text value => some (.text (change value))
  | .operation _ => none

/-- The helper that tells something of an operation. -/
def ofOperation (tell : Operation → HelperValue) : Helper
  | .operation op => some (tell op)
  | .text _ => none

/-- The helper that tests an operation. -/
def ofTest (test : Operation → Bool) : Helper := ofOperation fun op ↦ .flag (test op)

/-- The path of an operation, or a text, as a path template. -/
def path : Helper
  | .text value => some (.expr (pathTemplate value))
  | .operation op => some (.expr (pathTemplate op.path))

end Helper

/-- Helpers by name, in the order of their names. -/
structure HelperTable where
  entries : List (String × Helper)

namespace HelperTable

/-- The table without helpers. -/
def empty : HelperTable := ⟨[]⟩

/-- Puts a helper at its place among entries in the order of their names, or in the place of one
with its name. -/
def insertEntry (name : String) (helper : Helper) :
    List (String × Helper) → List (String × Helper)
  | [] => [(name, helper)]
  | (key, other) :: rest =>
    if name < key then (name, helper) :: (key, other) :: rest
    else if key < name then (key, other) :: insertEntry name helper rest
    else (name, helper) :: rest

/-- The table with one more helper, or with a new one under a name that it has. -/
def register (table : HelperTable) (name : String) (helper : Helper) : HelperTable :=
  ⟨insertEntry name helper table.entries⟩

/-- The names of a table's helpers, in order. -/
def names (table : HelperTable) : List String := table.entries.map Prod.fst

/-- Whether a table has a helper of that name. -/
def contains (table : HelperTable) (name : String) : Bool := (table.entries.lookup name).isSome

/-- The table that artifacts are made with. -/
def standard : HelperTable :=
  [ ("camelCase", Helper.ofText Identifier.camelCase)
  , ("pascalCase", Helper.ofText Identifier.pascalCase)
  , ("snakeCase", Helper.ofText Identifier.snakeCase)
  , ("kebabCase", Helper.ofText Identifier.kebabCase)
  , ("constantCase", Helper.ofText Identifier.constantCase)
  , ("pathTemplate", Helper.path)
  , ("hasPathParams", Helper.ofTest fun op ↦ !(op.parametersAt .path).isEmpty)
  , ("hasQueryParams", Helper.ofTest fun op ↦ !(op.parametersAt .query).isEmpty)
  , ("isMutation", Helper.ofTest fun op ↦ !op.method.isRead)
  , ("isQuery", Helper.ofTest fun op ↦ op.method.isRead)
  , ("requiresAuth", Helper.ofTest fun op ↦ op.requiresAuth)
  , ("successResponse",
      Helper.ofOperation fun op ↦ .response (op.responses.find? Response.isSuccess))
  , ("queryKey", Helper.ofOperation fun op ↦ .segments [op.primaryTag, op.id])
  ].foldl (fun table (name, helper) ↦ table.register name helper) empty

instance : Inhabited HelperTable := ⟨standard⟩

/-! ### Asking -/

/-- The answer of the helper of a name. -/
def call (table : HelperTable) (name : String) (argument : HelperArgument) :
    Except Failure HelperValue :=
  match table.entries.lookup name with
  | none => .error (.unknownHelper name)
  | some helper =>
    match helper argument with
    | none => .error (.render (.helperArgument name))
    | some value => .ok value

/-- The failure of a helper whose answer is of the wrong kind. -/
def unexpected {α : Type} (name : String) (value : HelperValue) : Except Failure α :=
  .error (.render (.helperResult name value.shown))

/-- The text that a helper makes of a text. -/
def text (table : HelperTable) (name input : String) : Except Failure String := do
  match ← table.call name (.text input) with
  | .text value => .ok value
  | other => unexpected name other

/-- What a helper says about an operation. -/
def flag (table : HelperTable) (name : String) (op : Operation) : Except Failure Bool := do
  match ← table.call name (.operation op) with
  | .flag value => .ok value
  | other => unexpected name other

/-- The expression that a helper makes for an operation. -/
def expr (table : HelperTable) (name : String) (op : Operation) :
    Except Failure TypeScript.Expr := do
  match ← table.call name (.operation op) with
  | .expr value => .ok value
  | other => unexpected name other

/-- The texts that a helper lists for an operation. -/
def segments (table : HelperTable) (name : String) (op : Operation) :
    Except Failure (List String) := do
  match ← table.call name (.operation op) with
  | .segments value => .ok value
  | other => unexpected name other

/-- The response that a helper picks from an operation's. -/
def response (table : HelperTable) (name : String) (op : Operation) :
    Except Failure (Option Response) := do
  match ← table.call name (.operation op) with
  | .response value => .ok value
  | other => unexpected name other

end HelperTable

end ApiContract
