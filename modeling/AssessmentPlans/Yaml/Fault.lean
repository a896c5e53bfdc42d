/-! What can be wrong with a YAML text. -/
namespace AssessmentPlans.Yaml

inductive Fault where
  | controlCharacter
  | unexpectedCharacter
  | brokenDirective
  | unknownDirective
  | repeatedDirective
  | unsupportedVersion
  | brokenName
  | brokenTag
  | undefinedHandle
  | brokenBlockHeader
  | tabInIndentation
  | markInScalar
  | openScalar
  | invalidEscape
  | colonInFlow
  | keyWithoutValue
  | entryNotAllowed
  | keyNotAllowed
  | valueNotAllowed
  | expectedNode
  | expectedEntry
  | expectedKey
  | expectedFlowEnd
  | expectedDocument
  | unknownAnchor
  | severalDocuments
  | endOfText
  deriving DecidableEq

def Fault.message : Fault → String
  | .controlCharacter => "control characters are not allowed"
  | .unexpectedCharacter => "found character that cannot start any token"
  | .brokenDirective => "did not find what the directive needs"
  | .unknownDirective => "found unknown directive name"
  | .repeatedDirective => "found duplicate directive"
  | .unsupportedVersion => "found incompatible YAML document"
  | .brokenName => "did not find expected alphabetic or numeric character"
  | .brokenTag => "did not find expected tag"
  | .undefinedHandle => "found undefined tag handle"
  | .brokenBlockHeader => "did not find expected comment or line break"
  | .tabInIndentation => "found a tab character where an indentation space is expected"
  | .markInScalar => "found unexpected document indicator"
  | .openScalar => "found unexpected end of stream"
  | .invalidEscape => "found unknown escape character"
  | .colonInFlow => "found unexpected ':'"
  | .keyWithoutValue => "could not find expected ':'"
  | .entryNotAllowed => "block sequence entries are not allowed in this context"
  | .keyNotAllowed => "mapping keys are not allowed in this context"
  | .valueNotAllowed => "mapping values are not allowed in this context"
  | .expectedNode => "did not find expected node content"
  | .expectedEntry => "did not find expected '-' indicator"
  | .expectedKey => "did not find expected key"
  | .expectedFlowEnd => "did not find expected ',' or the end of the collection"
  | .expectedDocument => "did not find expected <document start>"
  | .unknownAnchor => "unknown anchor"
  | .severalDocuments => "deserializing from YAML containing more than one document is not supported"
  | .endOfText => "EndOfStream"

end AssessmentPlans.Yaml
