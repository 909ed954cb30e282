import LayoutTech.Yaml.Source

/-!
# Tokens

A YAML text consists of tokens: indicators, which open, close and divide collections, the contents of
scalars, and what stands before a node. Where indentation opens or closes a collection there is a token
for it too.
-/

namespace LayoutTech.Yaml

inductive ScalarStyle where
  | plain
  | singleQuoted
  | doubleQuoted
  | literal
  | folded
deriving DecidableEq, Repr

/-- A tag as it is written: the handle stands for the start of it. -/
structure TagText where
  handle : String
  suffix : String
deriving DecidableEq, Repr

inductive Symbol where
  | version (major minor : Nat)
  | tagHandle (handle expansion : String)
  | documentStart
  | documentEnd
  | streamEnd
  | sequenceStart
  | mappingStart
  | blockEnd
  | flowSequenceStart
  | flowSequenceEnd
  | flowMappingStart
  | flowMappingEnd
  | entry
  | flowEntry
  | key
  | value
  | anchor (name : String)
  | tag (text : TagText)
  | alias (name : String)
  | scalar (style : ScalarStyle) (text : String)
deriving DecidableEq, Repr

structure Token where
  symbol : Symbol
  start : Mark
  stop : Mark
deriving DecidableEq, Repr

structure ScalarText where
  text : List Char
  stop : Mark
  rest : Source
  /-- A line break was read after the text. -/
  brokenAfter : Bool

end LayoutTech.Yaml
