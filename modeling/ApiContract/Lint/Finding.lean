/-!
# Findings

What the linter reports about a document: a code, the place in the document and a message. A code
has a fixed severity, so the errors and the warnings of a report are two parts of one list.

A place is written as the path of field names and indices that leads to it, with points between
them; it is told to a reader and never followed. Codes are an enumeration: whether a report contains
a finding of some kind does not depend on wording.
-/

namespace ApiContract

/-- How grave a finding is: errors make a contract invalid, warnings do not. -/
inductive Severity where
  | error
  | warning
  deriving DecidableEq, Repr

/-- The word for a severity. -/
def Severity.name : Severity → String
  | error => "error"
  | warning => "warning"

/-- What kinds of findings there are. -/
inductive FindingCode where
  | incompatibleVersion
  | missingVersion
  | invalidVersion
  | missingInfo
  | missingTitle
  | missingApiVersion
  | missingDescription
  | missingServerUrl
  | noServers
  | unresolvedReference
  | missingPaths
  | missingOperationId
  | missingSummary
  | missingTags
  | missingRequestBody
  | unboundPathParameter
  | unusedPathParameter
  | missingSuccessResponse
  | missingErrorResponse
  | missingParameterName
  | missingParameterLocation
  | missingParameterSchema
  | missingRequiredRoute
  | unprotectedRoute
  | unsupportedContentType
  | invalidSchema
  | arrayWithoutItems
  | untypedSchema
  deriving DecidableEq, Repr

namespace FindingCode

/-- The printed name of a code. -/
def name : FindingCode → String
  | incompatibleVersion => "INCOMPATIBLE_VERSION"
  | missingVersion => "MISSING_VERSION"
  | invalidVersion => "INVALID_VERSION"
  | missingInfo => "MISSING_INFO"
  | missingTitle => "MISSING_TITLE"
  | missingApiVersion => "MISSING_API_VERSION"
  | missingDescription => "MISSING_DESCRIPTION"
  | missingServerUrl => "MISSING_SERVER_URL"
  | noServers => "NO_SERVERS"
  | unresolvedReference => "UNRESOLVED_REFERENCE"
  | missingPaths => "MISSING_PATHS"
  | missingOperationId => "MISSING_OPERATION_ID"
  | missingSummary => "MISSING_SUMMARY"
  | missingTags => "MISSING_TAGS"
  | missingRequestBody => "MISSING_REQUEST_BODY"
  | unboundPathParameter => "UNBOUND_PATH_PARAMETER"
  | unusedPathParameter => "UNUSED_PATH_PARAMETER"
  | missingSuccessResponse => "MISSING_SUCCESS_RESPONSE"
  | missingErrorResponse => "MISSING_ERROR_RESPONSE"
  | missingParameterName => "MISSING_PARAMETER_NAME"
  | missingParameterLocation => "MISSING_PARAMETER_LOCATION"
  | missingParameterSchema => "MISSING_PARAMETER_SCHEMA"
  | missingRequiredRoute => "MISSING_REQUIRED_ROUTE"
  | unprotectedRoute => "UNPROTECTED_ROUTE"
  | unsupportedContentType => "UNSUPPORTED_CONTENT_TYPE"
  | invalidSchema => "INVALID_SCHEMA"
  | arrayWithoutItems => "ARRAY_WITHOUT_ITEMS"
  | untypedSchema => "UNTYPED_SCHEMA"

/-- The severity of every finding with this code. -/
def severity : FindingCode → Severity
  | missingDescription | noServers | missingOperationId | missingSummary | missingTags
  | missingRequestBody | unusedPathParameter | missingSuccessResponse | missingErrorResponse
  | missingParameterSchema | missingRequiredRoute | unprotectedRoute | unsupportedContentType
  | untypedSchema => .warning
  | _ => .error

end FindingCode

/-- One finding: its kind, the place it is about and what to tell. -/
structure Finding where
  code : FindingCode
  path : String
  message : String
  deriving DecidableEq, Repr

namespace Finding

/-- The severity of the finding's code. -/
def severity (f : Finding) : Severity := f.code.severity

/-- Whether the finding makes the contract invalid. -/
def isError (f : Finding) : Bool := f.severity == .error

/-- The finding on one line. -/
def display (f : Finding) : String :=
  (if f.path.isEmpty then "<root>" else f.path) ++ ": " ++ f.message ++ " [" ++ f.code.name ++ "]"

end Finding

end ApiContract
