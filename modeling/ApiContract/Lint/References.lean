import ApiContract.Json.Pointer
import ApiContract.Lint.Finding
import ApiContract.Lint.Suggestion

/-!
# References that lead nowhere

Every `$ref` with a text, anywhere in the document, must resolve. A reference that does not is
reported with the component whose name it fits best, if it fits one.

The document is searched as a tree, without regard to what its parts mean, so a property that
happens to be called `$ref` counts too. Each reference comes with its place, and a place has one
finding at most. Resolution, on the other hand, follows a reference only where a schema, a parameter
and so on is expected, and passes over one without a target; so the references that matter to it are
among those reported here (`Proofs.Lint.References`).

The candidates for a suggestion are all entries of all sections of `components`. Their names are
escaped in a suggestion, those of the sections are not (`Proofs.Lint.Suggestions`).
-/

namespace ApiContract

namespace Lint

/-- The place of a field below a place. -/
def child (path key : String) : String :=
  if path.isEmpty then key else path ++ "." ++ key

/-- The place of an item below a place. -/
def item (path : String) (index : Nat) : String := path ++ "[" ++ toString index ++ "]"

mutual

/-- The references of a value, each with its place. -/
def references (path : String) : Json → List (String × String)
  | .object fields => fieldReferences path fields
  | .array items => itemReferences path 0 items
  | _ => []

/-- The references of fields. -/
def fieldReferences (path : String) : List (String × Json) → List (String × String)
  | [] => []
  | (key, .string reference) :: rest =>
    if key = "$ref" then (child path key, reference) :: fieldReferences path rest
    else fieldReferences path rest
  | (key, value) :: rest => references (child path key) value ++ fieldReferences path rest

/-- The references of items, the first of which has that index. -/
def itemReferences (path : String) (index : Nat) : List Json → List (String × String)
  | [] => []
  | value :: rest => references (item path index) value ++ itemReferences path (index + 1) rest

end

/-- A reference to an entry of a section of `components`. -/
def componentPointer (kind name : String) : String :=
  "#/components/" ++ kind ++ "/" ++ String.ofList (Pointer.escape name.toList)

/-- References to every entry of every section of `components`. -/
def componentPointers (doc : Json) : List String :=
  (((doc.get? "components").bind Json.asObject?).getD []).flatMap fun part ↦
    (part.2.asObject?.getD []).map fun entry ↦ componentPointer part.1 entry.1

/-- The component whose name fits a reference best. -/
def suggestion? (candidates : List String) (reference : String) : Option String :=
  (Pointer.referenceName? reference).bind fun name ↦
    Suggestion.closest? Pointer.referenceName? name candidates

/-- What to tell about a reference that leads nowhere. -/
def unresolvedMessage (candidates : List String) (reference : String) : String :=
  match suggestion? candidates reference with
  | some closest =>
    "Unresolvable reference '" ++ reference ++ "' (did you mean '" ++ closest ++ "'?)"
  | none => "Unresolvable reference '" ++ reference ++ "'"

/-- One error for every reference that leads nowhere. -/
def checkReferences (doc : Json) : List Finding :=
  let candidates := componentPointers doc
  (references "" doc).filterMap fun (path, reference) ↦
    if (Pointer.resolve? doc reference).isSome then none
    else some ⟨.unresolvedReference, path, unresolvedMessage candidates reference⟩

end Lint

end ApiContract
