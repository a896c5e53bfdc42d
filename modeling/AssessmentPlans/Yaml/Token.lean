/-! The tokens of a YAML text. Indentation has become the start and the end of
blocks. -/
namespace AssessmentPlans.Yaml

/-- How a scalar is written. -/
inductive ScalarStyle where
  | plain
  | single
  | double
  | literal
  | folded
  deriving DecidableEq

inductive Token where
  | streamEnd
  | version (major minor : Nat)
  /-- A handle and the beginning of the tags that it stands for. -/
  | tagHandle (handle start : String)
  | documentStart
  | documentEnd
  | blockSequenceStart
  | blockMappingStart
  | blockEnd
  | flowSequenceStart
  | flowSequenceEnd
  | flowMappingStart
  | flowMappingEnd
  | blockEntry
  | flowEntry
  | key
  | value
  | alias (name : String)
  | anchor (name : String)
  /-- Without a handle the suffix is the whole tag. -/
  | tag (handle suffix : String)
  | scalar (text : String) (style : ScalarStyle)
  deriving DecidableEq

end AssessmentPlans.Yaml
