/-!
# Faults in YAML texts

Why a text is not read as YAML, one constructor per cause: of characters, of tokens, of structure,
of anchors and of values. A fault has no place; its wording tells the cause alone.
-/

namespace ApiContract.Yaml

/-- Why a text is not read as YAML. -/
inductive Fault where
  | controlCharacter
  | unknownToken
  | keyWithoutColon
  | sequenceNotAllowed
  | keyNotAllowed
  | valueNotAllowed
  | unknownDirective
  | malformedDirective
  | duplicateDirective
  | unsupportedVersion
  | malformedAnchor
  | malformedTag
  | unknownTagHandle
  | malformedBlockHeader
  | tabInIndentation
  | unexpectedDocumentMarker
  | unexpectedEnd
  | unknownEscape
  | malformedEscape
  | unexpectedColon
  | expectedDocumentStart
  | expectedContent
  | expectedDash
  | expectedKey
  | expectedCommaOrBracket
  | expectedCommaOrBrace
  | severalDocuments
  | unknownAnchor
  | nestedTooDeeply
  | repeatedTooOften
  | duplicateKey
  | unfitTag
  | emptyTag
  | numberTooLarge
  deriving DecidableEq, Repr

/-- What to tell about a fault. -/
def Fault.message : Fault → String
  | controlCharacter => "control characters are not allowed"
  | unknownToken => "found character that cannot start any token"
  | keyWithoutColon => "could not find expected ':'"
  | sequenceNotAllowed => "block sequence entries are not allowed in this context"
  | keyNotAllowed => "mapping keys are not allowed in this context"
  | valueNotAllowed => "mapping values are not allowed in this context"
  | unknownDirective => "found unknown directive name"
  | malformedDirective => "found a malformed directive"
  | duplicateDirective => "found duplicate directive"
  | unsupportedVersion => "found incompatible YAML document"
  | malformedAnchor => "did not find expected alphabetic or numeric character"
  | malformedTag => "did not find expected tag URI"
  | unknownTagHandle => "found undefined tag handle"
  | malformedBlockHeader => "did not find expected comment or line break"
  | tabInIndentation => "found a tab character where an indentation space is expected"
  | unexpectedDocumentMarker => "found unexpected document indicator"
  | unexpectedEnd => "found unexpected end of stream"
  | unknownEscape => "found unknown escape character"
  | malformedEscape => "did not find expected hexadecimal number"
  | unexpectedColon => "found unexpected ':'"
  | expectedDocumentStart => "did not find expected <document start>"
  | expectedContent => "did not find expected node content"
  | expectedDash => "did not find expected '-' indicator"
  | expectedKey => "did not find expected key"
  | expectedCommaOrBracket => "did not find expected ',' or ']'"
  | expectedCommaOrBrace => "did not find expected ',' or '\x7d'"
  | severalDocuments => "deserializing from YAML containing more than one document is not supported"
  | unknownAnchor => "unknown anchor"
  | nestedTooDeeply => "recursion limit exceeded"
  | repeatedTooOften => "repetition limit exceeded"
  | duplicateKey => "duplicate entry"
  | unfitTag => "invalid value"
  | emptyTag => "empty YAML tag is not allowed"
  | numberTooLarge => "invalid type: integer"

end ApiContract.Yaml
