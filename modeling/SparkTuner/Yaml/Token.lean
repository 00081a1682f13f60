/-!
# Tokens of YAML

The pieces a document is cut into. Block collections are opened and closed by changes of the
indentation, which tokens stand for as well.
-/

namespace SparkTuner.Yaml

/-- How a scalar is written. -/
inductive Style where
  | plain
  | singleQuoted
  | doubleQuoted
  | literal
  | folded
  deriving Repr, DecidableEq

/-- A tag as it is written: a handle that stands for a part of it, and the rest. An empty handle
stands for nothing. -/
structure TagName where
  handle : String
  suffix : String
  deriving Repr, DecidableEq

/-- A piece of a document. -/
inductive Token where
  | version (major minor : Nat)
  /-- What a tag handle stands for from here on. -/
  | handle (name stands : String)
  | documentStart
  | documentEnd
  | streamEnd
  | blockSequence
  | blockMapping
  /-- The end of a block collection. -/
  | blockEnd
  | flowSequence
  | flowSequenceEnd
  | flowMapping
  | flowMappingEnd
  /-- The hyphen before an item. -/
  | item
  /-- The comma between the parts of a flow collection. -/
  | comma
  | key
  | value
  | alias (name : String)
  | anchor (name : String)
  | tag (name : TagName)
  | scalar (style : Style) (text : String)
  deriving Repr, DecidableEq

end SparkTuner.Yaml
