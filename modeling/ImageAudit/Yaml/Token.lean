import ImageAudit.Bytes

/-! # Tokens of a YAML document

The text of a document is read as tokens first. What the text shows by indentation alone, the
beginning and end of a block, is a token too, as is the key of a pair that no mark announces.
-/

namespace ImageAudit.Yaml

inductive ScalarStyle where
  | plain
  | singleQuoted
  | doubleQuoted
  | literal
  | folded
  deriving DecidableEq, Repr

/-- A tag as it is written: a handle, which stands for a beginning, and the rest. As bytes can be
written in it one by one, the rest need not be text. -/
structure TagText where
  handle : String
  suffix : Bytes
  deriving DecidableEq, Repr

inductive Token where
  | version (major minor : Nat)
  /-- Declares what a tag handle stands for. -/
  | handle (handle : String) (meaning : Bytes)
  | documentStart
  | documentEnd
  | blockSequenceStart
  | blockMappingStart
  | blockEnd
  | flowSequenceStart
  | flowSequenceEnd
  | flowMappingStart
  | flowMappingEnd
  | blockEntry
  | flowEntry
  | key
  | value
  | alias (name : String)
  | anchor (name : String)
  | tag (tag : TagText)
  | scalar (style : ScalarStyle) (text : String)
  deriving DecidableEq, Repr

end ImageAudit.Yaml
