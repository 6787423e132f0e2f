import ApiContract.Failure
import ApiContract.Json.Printer
import ApiContract.Lint.Components
import ApiContract.Lint.Operations
import ApiContract.Lint.Policy
import ApiContract.Lint.Version

/-!
# Linting a document

Eight checks, one after the other: metadata, servers, references, operations, required routes,
protected prefixes, media types and component schemas. Each is a function from the document to its
findings and looks at the document alone; only the fifth to the seventh look at the policy.

## Checks of the policy

Required routes are compared with those of the document up to the names of placeholders
(`normalPath`); only a segment that is a placeholder as a whole counts as one. An operation under a
protected prefix has to ask for authentication, its own list of requirements before that of the
document. Media types are compared without their parameters and in any case of letters.

## Reports

A report keeps errors and warnings apart, each in the order in which they were found, and counts the
operations and the models of the document. A contract is valid if there is no error; it passes in
strict mode if there is no warning either (`passes`). `enforce` turns that verdict into a failure.
-/

namespace ApiContract

namespace Lint

/-- Errors for a missing, unsupported or malformed version of the contract language. -/
def checkVersion (doc : Json) : List Finding :=
  match doc.get? "openapi" with
  | none =>
    if (doc.get? "swagger").isSome then
      [⟨.incompatibleVersion, "swagger",
        "Swagger 2.0 documents are not supported; convert to OpenAPI 3.x"⟩]
    else [⟨.missingVersion, "openapi", "Missing 'openapi' version field"⟩]
  | some value =>
    match value.scalarText?, value.scalarText?.bind Version.ofText? with
    | some text, some version =>
      if version.major = 3 then []
      else [⟨.incompatibleVersion, "openapi",
        "OpenAPI version '" ++ text ++ "' is not supported; expected 3.x"⟩]
    | _, _ => [⟨.invalidVersion, "openapi", "Invalid 'openapi' version: " ++ value.compact⟩]

/-- Whether a field is missing, no scalar, or blank. -/
def lacksScalar (fields : List (String × Json)) (name : String) : Bool :=
  match (field? name fields).bind Json.scalarText? with
  | some text => Text.isBlankText text
  | none => true

/-- Findings for what the `info` object lacks. -/
def checkInfo (doc : Json) : List Finding :=
  match (doc.get? "info").bind Json.asObject? with
  | none => [⟨.missingInfo, "info", "Missing 'info' object"⟩]
  | some info =>
    (if lacksScalar info "title" then
        [⟨.missingTitle, "info.title", "Contract has no title"⟩] else []) ++
    (if lacksScalar info "version" then
        [⟨.missingApiVersion, "info.version", "Contract has no version"⟩] else []) ++
    (if lacksText info "description" then
        [⟨.missingDescription, "info.description", "Contract has no description"⟩] else [])

/-- The check of the metadata. -/
def checkMetadata (doc : Json) : List Finding := checkVersion doc ++ checkInfo doc

/-- Whether a server has an address. -/
def hasAddress (server : Json) : Bool :=
  match server.stringAt? "url" with
  | some url => !Text.isBlankText url
  | none => false

/-- The check of the servers. -/
def checkServers (doc : Json) : List Finding :=
  match ((doc.get? "servers").bind Json.asArray?).getD [] with
  | [] => [⟨.noServers, "servers",
      "No servers declared; generated clients will need an explicit base URL"⟩]
  | servers => (indexed servers).filterMap fun (i, server) ↦
    if hasAddress server then none
    else some ⟨.missingServerUrl, item "servers" i, "Server declaration has no 'url'"⟩

/-- A segment of a path for comparison: a placeholder counts whatever its name. -/
def normalSegment (segment : List Char) : List Char :=
  if (Text.between? '\x7b' '\x7d' segment).isSome then ['\x7b', '\x7d'] else segment

/-- A path for comparison, as its segments. -/
def normalPath (path : String) : List (List Char) := (path.toList.splitOn '/').map normalSegment

/-- Whether a document defines a route, up to the names of placeholders. -/
def defines (doc : Json) (route : Route) : Bool :=
  (operations doc).any fun e ↦
    e.method == route.method && normalPath e.template == normalPath route.path

/-- The check of the required routes. -/
def checkCoverage (policy : LintPolicy) (doc : Json) : List Finding :=
  (policy.requiredRoutes.filter fun route ↦ !defines doc route).map fun route ↦
    ⟨.missingRequiredRoute, "paths", "Required route " ++ route.display ++ " is not defined"⟩

/-- Whether a list of security requirements is there, and whether it asks for something. -/
def asksForAuth? (value : Option Json) : Option Bool :=
  (value.bind Json.asArray?).map fun list ↦ !list.isEmpty

/-- Whether a path begins with a protected prefix. -/
def isProtected (policy : LintPolicy) (path : String) : Bool :=
  policy.protectedPrefixes.any (Text.startsWith path)

/-- The check of the protected prefixes. -/
def checkSecurity (policy : LintPolicy) (doc : Json) : List Finding :=
  let byDefault := (asksForAuth? (doc.get? "security")).getD false
  ((operations doc).filter fun e ↦
    isProtected policy e.template &&
      !(asksForAuth? (field? "security" e.op)).getD byDefault).map fun e ↦
    ⟨.unprotectedRoute, child (child "paths" e.template) e.method.key,
      e.method.display ++ " " ++ e.template ++
        " is under a protected prefix but has no security requirement"⟩

/-- A media type without its parameters, in small letters. -/
def essence (mediaType : String) : String :=
  Text.lower (Text.trim (String.ofList (mediaType.toList.takeWhile (· ≠ ';'))))

/-- Whether the policy allows a media type; case does not matter. -/
def allowsMedia (policy : LintPolicy) (mediaType : String) : Bool :=
  policy.allowedContentTypes.any (Text.sameIgnoringCase · (essence mediaType))

/-- The media types of an operation's body. -/
def bodyMediaTypes (doc : Json) (op : List (String × Json)) : List String :=
  (((((field? "requestBody" op).bind (dereference? doc)).bind fun body ↦
    body.get? "content").bind Json.asObject?).getD []).map Prod.fst

/-- The check of the media types of request bodies. -/
def checkContentTypes (policy : LintPolicy) (doc : Json) : List Finding :=
  ((operations doc).filter fun e ↦ e.method.expectsBody).flatMap fun e ↦
    ((bodyMediaTypes doc e.op).filter fun media ↦ !allowsMedia policy media).map fun media ↦
      ⟨.unsupportedContentType,
        "paths." ++ e.template ++ "." ++ e.method.key ++ ".requestBody.content",
        e.method.display ++ " " ++ e.template ++ " accepts unsupported media type '" ++ media ++
          "'"⟩

/-- The findings about a document, in the order of the checks. -/
def findings (policy : LintPolicy) (doc : Json) : List Finding :=
  checkMetadata doc ++ checkServers doc ++ checkReferences doc ++ checkOperations doc ++
    checkCoverage policy doc ++ checkSecurity policy doc ++ checkContentTypes policy doc ++
    checkComponents doc

end Lint

/-- The outcome of linting a document. -/
structure LintReport where
  errors : List Finding
  warnings : List Finding
  operationCount : Nat
  modelCount : Nat
  deriving DecidableEq, Repr

namespace LintReport

/-- Whether the contract is valid: it has no errors. -/
def isValid (r : LintReport) : Bool := r.errors.isEmpty

/-- Whether there are warnings. -/
def hasWarnings (r : LintReport) : Bool := !r.warnings.isEmpty

/-- Whether the contract passes; if `strict`, warnings fail it too. -/
def passes (r : LintReport) (strict : Bool) : Bool := r.isValid && !(strict && r.hasWarnings)

/-- The report as a verdict: a contract that does not pass is a failure. -/
def enforce (r : LintReport) (strict : Bool) : Except Failure LintReport :=
  if !r.isValid then .error (.invalid r.errors)
  else if strict && r.hasWarnings then .error (.warned r.warnings)
  else .ok r

end LintReport

/-- Lints a document under a policy. -/
def lint (policy : LintPolicy) (doc : Json) : LintReport :=
  let all := Lint.findings policy doc
  { errors := all.filter Finding.isError
    warnings := all.filter fun f ↦ !f.isError
    operationCount := (Lint.operations doc).length
    modelCount := (Lint.componentSchemas doc).length }

end ApiContract
