import ApiContract.Identifier
import ApiContract.Json.Printer
import ApiContract.Schema.Resolution
import ApiContract.Spec.Basic

/-!
# From a document to a resolved contract

`Spec.ofDocument` never fails: missing data have defaults and malformed parts are left out. What is
wrong with a document is for the linter to say. What references and fragments stand for is asked of
a `Resolver`, and everything else is read off the tree.

## Operations

The parameters of a path item hold for all its operations, and an operation's own come after them:
of one name the last declaration counts, at the first place (`mergeParameters`). A parameter without
a name, or in no place that there is, is left out. An operation without an id gets one from its
method and its path (`Operation.derivedId`), in words of which the first is the method; such an id
is always usable as a name (`Proofs.Artifact.DerivedIds`).

## Bodies and responses

A body or a response has the schema of one media type, JSON if it is among them and otherwise the
first. A response whose reference has no target is left out, one without content stays.

## Security

An operation requires authentication if its own list of requirements has an entry, or, where it has
no such list, if the document's has.
-/

namespace ApiContract

namespace Operation

/-- Whether a path segment is a version: `v` and digits. -/
def isVersionSegment : List Char → Bool
  | 'v' :: digits => !digits.isEmpty && digits.all Char.isDigit
  | _ => false

/-- The part of an operation id that a path segment gives: `ById` for `\x7bid\x7d`, `Products` for
`products`. -/
def idPart (segment : List Char) : List Char :=
  match Text.between? '\x7b' '\x7d' segment with
  | some name => ['B', 'y'] ++ Identifier.pascalChars name
  | none => Identifier.pascalChars segment

/-- The id of an operation that declares none: its method and the segments of its path, without a
version in front. -/
def derivedId (method : HttpMethod) (path : String) : String :=
  let segments := (path.toList.splitOn '/').filter fun s ↦ !s.isEmpty
  let named := match segments with
    | first :: rest => if isVersionSegment first then rest else first :: rest
    | [] => []
  String.ofList (method.key.toList ++ named.flatMap idPart)

end Operation

/-- Adds a parameter, or puts it in the place of the one of that name. -/
def putParameter (parameters : List Parameter) (parameter : Parameter) : List Parameter :=
  match parameters with
  | [] => [parameter]
  | head :: rest =>
    if head.name = parameter.name then parameter :: rest else head :: putParameter rest parameter

/-- The parameters of a path item and of an operation together: one of each name, at its first
place, as its last declaration says. -/
def mergeParameters (shared own : List Parameter) : List Parameter :=
  (shared ++ own).foldl putParameter []

namespace Build

variable (resolver : Resolver)

/-- The media type that a body is read as when it has several. -/
def preferredMediaType : String := "application/json"

/-- The preferred entry of a `content` object, or its first. -/
def pickMedia? (content : Option Json) : Option (String × Json) :=
  (content.bind Json.asObject?).bind fun entries ↦
    (entries.find? fun entry ↦ entry.1 == preferredMediaType).orElse fun _ ↦ entries.head?

/-- The schema of a parameter: under `schema`, or that of its media type. -/
def parameterSchema? (parameter : Json) : Option Json :=
  (parameter.get? "schema").orElse fun _ ↦
    (pickMedia? (parameter.get? "content")).bind fun media ↦ media.2.get? "schema"

/-- A parameter, if it has a name and a place. -/
def parameter? (value : Json) : Option Parameter :=
  (resolver.object? value).bind fun declared ↦
    (declared.stringAt? "name").bind fun name ↦
      ((declared.stringAt? "in").bind ParamPlace.ofName?).map fun place ↦
        { name := name
          place := place
          -- A path without one of its parameters is another path, whatever the document says.
          required := place == .path || ((declared.get? "required").bind Json.asBool?).getD false
          schema := ((parameterSchema? declared).map resolver.schema).getD Schema.any
          description := declared.stringAt? "description" }

/-- The parameters of a list. -/
def parameters (value : Option Json) : List Parameter :=
  ((value.bind Json.asArray?).getD []).filterMap (parameter? resolver)

/-- A request body, if it has a media type. -/
def requestBody? (value : Json) : Option RequestBody :=
  (resolver.object? value).bind fun body ↦
    (pickMedia? (body.get? "content")).map fun (contentType, media) ↦
      { contentType := contentType
        schema := ((media.get? "schema").map resolver.schema).getD Schema.any
        required := ((body.get? "required").bind Json.asBool?).getD false }

/-- A response, if its references lead somewhere. -/
def response? (entry : String × Json) : Option Response :=
  (resolver.object? entry.2).map fun response ↦
    let media := pickMedia? (response.get? "content")
    { status := entry.1
      description := response.stringAt? "description"
      contentType := media.map Prod.fst
      schema := (media.bind fun m ↦ m.2.get? "schema").map resolver.schema }

/-- Whether a list of security requirements is there, and whether it asks for something. -/
def asksForAuth? (value : Option Json) : Option Bool :=
  (value.bind Json.asArray?).map fun list ↦ !list.isEmpty

/-- The tags that an operation declares, or the default one. -/
def tags (op : Json) : List String :=
  match (((op.get? "tags").bind Json.asArray?).getD []).filterMap Json.asString? with
  | [] => [defaultTag]
  | declared => declared

/-- An operation under a method of a path item. -/
def operation (path : String) (shared : List Parameter) (authByDefault : Bool)
    (method : HttpMethod) (op : Json) : Operation :=
  { id := (op.stringAt? "operationId").getD (Operation.derivedId method path)
    method := method
    path := path
    summary := op.stringAt? "summary"
    description := op.stringAt? "description"
    tags := tags op
    parameters := mergeParameters shared (parameters resolver (op.get? "parameters"))
    requestBody := (op.get? "requestBody").bind (requestBody? resolver)
    responses :=
      (((op.get? "responses").bind Json.asObject?).getD []).filterMap (response? resolver)
    requiresAuth := (asksForAuth? (op.get? "security")).getD authByDefault
    deprecated := ((op.get? "deprecated").bind Json.asBool?).getD false }

/-- The entries of a path item that are operations. -/
def methodEntries (item : List (String × Json)) : List (HttpMethod × Json) :=
  item.filterMap fun entry ↦
    match HttpMethod.ofName? entry.1, entry.2 with
    | some method, .object op => some (method, .object op)
    | _, _ => none

/-- The path items of a document, references followed. -/
def pathItems (root : Json) : List (String × List (String × Json)) :=
  (((root.get? "paths").bind Json.asObject?).getD []).filterMap fun entry ↦
    ((resolver.object? entry.2).bind Json.asObject?).map fun item ↦ (entry.1, item)

/-- The operations of a path item. -/
def pathOperations (authByDefault : Bool) (path : String) (item : List (String × Json)) :
    List Operation :=
  let shared := parameters resolver (field? "parameters" item)
  (methodEntries item).map fun entry ↦
    operation resolver path shared authByDefault entry.1 entry.2

/-- The operations of a document. -/
def operations (root : Json) : List Operation :=
  let authByDefault := (asksForAuth? (root.get? "security")).getD false
  (pathItems resolver root).flatMap fun entry ↦
    pathOperations resolver authByDefault entry.1 entry.2

/-- The entries of a section of `components`. -/
def componentEntries (root : Json) (kind : String) : List (String × Json) :=
  (((root.get? "components").bind fun c ↦ c.get? kind).bind Json.asObject?).getD []

/-- The models of a document. -/
def models (root : Json) : List Model :=
  (componentEntries root "schemas").map fun entry ↦
    let schema := resolver.schema entry.2
    { name := entry.1
      description := schema.description
      schema := schema
      properties := schema.properties
      required := schema.required }

/-- The security schemes of a document. -/
def securitySchemes (root : Json) : List SecurityScheme :=
  (componentEntries root "securitySchemes").map fun entry ↦
    { name := entry.1
      kind := (entry.2.stringAt? "type").getD "unknown"
      scheme := entry.2.stringAt? "scheme"
      bearerFormat := entry.2.stringAt? "bearerFormat"
      place := entry.2.stringAt? "in"
      paramName := entry.2.stringAt? "name" }

/-- The address of the first server. -/
def baseUrl (root : Json) : String :=
  ((((root.get? "servers").bind Json.asArray?).bind List.head?).bind fun server ↦
    server.stringAt? "url").getD "/"

/-- A scalar of the `info` object, as text. -/
def infoText? (root : Json) (name : String) : Option String :=
  ((root.get? "info").bind fun info ↦ info.get? name).bind Json.scalarText?

end Build

/-- The contract of a document, with what its values stand for asked of a resolver. -/
def Spec.build (resolver : Resolver) (root : Json) : Spec :=
  let operations := Build.operations resolver root
  { title := (Build.infoText? root "title").getD "Untitled API"
    version := (Build.infoText? root "version").getD "0.0.0"
    description := Build.infoText? root "description"
    baseUrl := Build.baseUrl root
    operations := operations
    models := Build.models resolver root
    tags := (NameSet.ofList (operations.flatMap Operation.tags)).toList
    securitySchemes := Build.securitySchemes root }

/-- The resolved contract of a document. -/
def Spec.ofDocument (root : Json) : Spec := Spec.build (.ofDocument root) root

end ApiContract
