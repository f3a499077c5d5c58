/-!
# Tokens of YAML texts

* `Style`: how a scalar is written.
* `Token`: the parts into which a text falls; nesting by indentation shows as starts and ends of blocks.
-/

namespace Muster.Yaml

/-- How a scalar is written. -/
inductive Style where
  | plain
  | singleQuoted
  | doubleQuoted
  | literal
  | folded
deriving DecidableEq, Repr

/-- A part of a text. -/
inductive Token where
  /-- The end of the text. -/
  | textEnd
  /-- The version of the language. -/
  | version (major minor : Nat)
  /-- An abbreviation for tags. -/
  | abbreviation (handle full : String)
  | documentStart
  | documentEnd
  | blockListStart
  | blockMapStart
  | blockEnd
  | flowListStart
  | flowListEnd
  | flowMapStart
  | flowMapEnd
  /-- A dash before an item. -/
  | blockItem
  /-- A comma between entries. -/
  | flowItem
  /-- What follows is a key. -/
  | key
  /-- What follows is the value of a key. -/
  | value
  | alias (name : String)
  | anchor (name : String)
  | tag (handle suffix : String)
  | scalar (text : String) (style : Style)
deriving DecidableEq, Repr, Inhabited

end Muster.Yaml
