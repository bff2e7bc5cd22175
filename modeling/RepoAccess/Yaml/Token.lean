/-
Tokens of YAML.

* `Yaml.Token` — the marks, properties and scalars of a document, block collections made explicit.
* `Yaml.ScalarStyle` — how a scalar is written.
* `Yaml.Tag` — the address of a type.
-/

namespace RepoAccess.Yaml

/-- How a scalar is written. -/
inductive ScalarStyle where
  | plain
  | quoted
  | literal
  | folded
deriving DecidableEq, Repr

/-- The address of a type: bytes that need not be text. -/
abbrev Tag := List UInt8

/-- A token of YAML. -/
inductive Token where
  /-- The version of the language that the document is written in. -/
  | version (major minor : Nat)
  /-- What a tag handle stands for. -/
  | handle (handle : String) (uri : Tag)
  | documentStart
  | documentEnd
  | blockSequence
  | blockMapping
  | blockEnd
  | flowSequence
  | flowSequenceEnd
  | flowMapping
  | flowMappingEnd
  /-- An entry of a block sequence. -/
  | item
  /-- The comma of a flow collection. -/
  | comma
  | key
  | value
  | alias (name : String)
  | anchor (name : String)
  | tag (handle : String) (suffix : Tag)
  | scalar (style : ScalarStyle) (text : String)
deriving DecidableEq, Repr

end RepoAccess.Yaml
