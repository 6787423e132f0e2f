import ApiContract.Http
import ApiContract.Lint.References
import ApiContract.NameSet
import ApiContract.Schema.Resolution
import ApiContract.Text.Basic

/-!
# Checks of operations

What each operation should declare: responses, an id, a summary, tags, a body, sound parameters, and
a path parameter for each placeholder of its path.

## Which operations

The operations are those of the path items under `paths`, references of path items followed. They
are found here independently of the resolved contract; that both find the same routes is proved in
`Proofs.Lint.Agreement`.

## Parameters

The parameters of an operation and those of its path item are checked each at their own place. For
the placeholders of a path both lists count together, and what is compared are names: a placeholder
is any text between braces without brace or slash, wherever in a segment it stands
(`placeholdersFrom`). The client reads placeholders differently, so a contract without these errors
can have one that the client does not fill.

A parameter behind a reference without a target is left to the check of references. One behind a
circle of references, or in a place that is none, is not reported at all, although resolution leaves
it out (`Proofs.Lint.Parameters`).
-/

namespace ApiContract

namespace Lint

/-- The names between braces in a path: not empty, and without brace or slash. The first argument
holds the name that has begun, backwards. -/
def placeholdersFrom : Option (List Char) → List Char → List String
  | _, [] => []
  | name, c :: rest =>
    -- A second opening brace begins the name anew.
    if c = '\x7b' then placeholdersFrom (some []) rest
    else if c = '\x7d' then
      match name with
      | some (d :: before) =>
        String.ofList (d :: before).reverse :: placeholdersFrom none rest
      | _ => placeholdersFrom none rest
    else if c = '/' then placeholdersFrom none rest
    else placeholdersFrom (name.map (c :: ·)) rest

/-- The placeholders of a path. -/
def placeholders (path : String) : List String := placeholdersFrom none path.toList

/-- Whether a field is missing, no text, or blank. -/
def lacksText (fields : List (String × Json)) (name : String) : Bool :=
  match field? name fields with
  | some (.string text) => Text.isBlankText text
  | _ => true

/-- The status codes of an operation's responses. -/
def statusCodes (op : List (String × Json)) : List String :=
  (((field? "responses" op).bind Json.asObject?).getD []).map Prod.fst

/-- Warnings for an operation without a response for success, or without one for a client's
error. -/
def checkResponses (op : List (String × Json)) (path label : String) : List Finding :=
  let codes := statusCodes op
  (if codes.any (Text.startsWith · "2") then []
    else
      [⟨.missingSuccessResponse, child path "responses", label ++ " declares no 2xx response"⟩]) ++
  (if codes.any (Text.startsWith · "4") then []
    else
      [⟨.missingErrorResponse, child path "responses", label ++ " declares no 4xx response"⟩])

/-- Warnings for what an operation does not say of itself. -/
def checkDescription (method : HttpMethod) (op : List (String × Json)) (path label : String) :
    List Finding :=
  (if lacksText op "operationId" then
      [⟨.missingOperationId, path, label ++ " has no operationId"⟩] else []) ++
  (if lacksText op "summary" then [⟨.missingSummary, path, label ++ " has no summary"⟩] else []) ++
  (if (((field? "tags" op).bind Json.asArray?).getD []).isEmpty then
      [⟨.missingTags, path, label ++ " has no tags"⟩] else []) ++
  (if method.expectsBody && !hasField "requestBody" op then
      [⟨.missingRequestBody, path, label ++ " is a mutating operation without a request body"⟩]
    else [])

/-- The name of a parameter, unless it is empty. -/
def parameterName? (parameter : List (String × Json)) : Option String :=
  ((field? "name" parameter).bind Json.asString?).filter fun name ↦ !name.isEmpty

/-- The name of a parameter that belongs to the path. -/
def pathParameterName? (parameter : List (String × Json)) : Option String :=
  if (field? "in" parameter).bind Json.asString? == some "path" then parameterName? parameter
  else none

/-- What is wrong with a parameter. -/
def checkParameter (parameter : List (String × Json)) (path : String) : List Finding :=
  let name := parameterName? parameter
  let shown := name.getD "?"
  (if name.isNone then [⟨.missingParameterName, path, "Parameter has no 'name'"⟩] else []) ++
  (if ((field? "in" parameter).bind Json.asString?).isNone then
      [⟨.missingParameterLocation, path, "Parameter '" ++ shown ++ "' has no 'in' location"⟩]
    else []) ++
  (if hasField "schema" parameter || hasField "content" parameter then []
    else [⟨.missingParameterSchema, path, "Parameter '" ++ shown ++ "' has no schema"⟩])

/-- The items of a list with their indices. -/
def indexed {α : Type} (items : List α) : List (Nat × α) := items.zipIdx.map fun (x, i) ↦ (i, x)

/-- The parameters that an object lists, with their places; those whose references lead nowhere are
left to the check of references. -/
def listedParameters (doc : Json) (fields : List (String × Json)) (path : String) :
    List (String × List (String × Json)) :=
  (indexed (((field? "parameters" fields).bind Json.asArray?).getD [])).filterMap fun (i, value) ↦
    ((dereference? doc value).bind Json.asObject?).map fun parameter ↦
      (item (child path "parameters") i, parameter)

/-- Errors for placeholders without a path parameter, and warnings for path parameters without a
placeholder. -/
def checkBinding (named : List String) (declared : NameSet) (path : String)
    (template label : String) : List Finding :=
  (named.filter fun name ↦ !declared.contains name).map (fun name ↦
    ⟨.unboundPathParameter, path,
      "Path placeholder '\x7b" ++ name ++ "\x7d' in " ++ label ++
        " has no matching path parameter '" ++ name ++ "'"⟩) ++
  (declared.toList.filter fun name ↦ !named.contains name).map fun name ↦
    ⟨.unusedPathParameter, path,
      "Path parameter '" ++ name ++ "' does not appear in " ++ template⟩

/-- The findings about one operation, under a key of a path item. -/
def checkOperation (doc : Json) (template : String) (item : List (String × Json)) (key : String)
    (method : HttpMethod) (op : List (String × Json)) : List Finding :=
  let itemPath := child "paths" template
  let path := child itemPath key
  let label := method.display ++ " " ++ template
  let parameters := listedParameters doc item itemPath ++ listedParameters doc op path
  checkResponses op path label ++ checkDescription method op path label ++
    (parameters.flatMap fun (place, parameter) ↦ checkParameter parameter place) ++
    checkBinding (placeholders template)
      (NameSet.ofList (parameters.filterMap fun entry ↦ pathParameterName? entry.2))
      path template label

/-- An operation as the linter meets it. -/
structure OperationEntry where
  template : String
  item : List (String × Json)
  key : String
  method : HttpMethod
  op : List (String × Json)

/-- The operations under a path item. -/
def itemOperations (template : String) (item : List (String × Json)) : List OperationEntry :=
  item.filterMap fun (key, value) ↦
    match HttpMethod.ofName? key, value with
    | some method, .object op => some ⟨template, item, key, method, op⟩
    | _, _ => none

/-- The operations of a document, references of path items followed. -/
def operations (doc : Json) : List OperationEntry :=
  (((doc.get? "paths").bind Json.asObject?).getD []).flatMap fun (template, value) ↦
    match (dereference? doc value).bind Json.asObject? with
    | some item => itemOperations template item
    | none => []

/-- The findings about all operations, or an error for a document without `paths`. -/
def checkOperations (doc : Json) : List Finding :=
  match (doc.get? "paths").bind Json.asObject? with
  | none => [⟨.missingPaths, "paths", "Contract declares no 'paths'"⟩]
  | some _ =>
    (operations doc).flatMap fun e ↦ checkOperation doc e.template e.item e.key e.method e.op

end Lint

end ApiContract
