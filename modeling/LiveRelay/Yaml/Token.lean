/-! # Tokens of a YAML text -/

namespace LiveRelay.Yaml

/-- How the text of a scalar is written. -/
inductive ScalarStyle where
  | plain
  | singleQuoted
  | doubleQuoted
  | literal
  | folded
  deriving DecidableEq

/-- The parts of a text, with the structure of its indentation made explicit. -/
inductive Token where
  | streamEnd
  | versionDirective (major minor : Nat)
  /-- The tags that start with `handle` stand for tags that start with `expansion`. -/
  | tagDirective (handle expansion : String)
  | documentStart
  | documentEnd
  | blockSequenceStart
  | blockMappingStart
  | blockEnd
  | flowSequenceStart
  | flowSequenceEnd
  | flowMappingStart
  | flowMappingEnd
  | blockEntry
  | flowEntry
  | key
  | value
  | reference (name : String)
  | anchor (name : String)
  | tag (handle suffix : String)
  | scalar (text : String) (style : ScalarStyle)
  deriving DecidableEq

end LiveRelay.Yaml
