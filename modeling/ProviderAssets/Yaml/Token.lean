import ProviderAssets.Yaml.Mark

/-!
# Tokens

The tokens of a text: indicators, the ends of indented blocks, directives, node properties and
scalars. Indentation has become tokens here, so that what follows no longer looks at columns.
-/

namespace ProviderAssets.Yaml

/-- How a scalar is written. Only plain scalars are read as something other than text. -/
inductive ScalarStyle where
  | plain | singleQuoted | doubleQuoted | literal | folded
  deriving DecidableEq, Inhabited

/-- A token. -/
inductive Token where
  | streamEnd
  | versionDirective (major minor : Nat)
  | tagDirective (handle tagStart : String)
  | documentStart
  | documentEnd
  | blockSequenceStart
  | blockMappingStart
  | blockEnd
  | flowSequenceStart
  | flowSequenceEnd
  | flowMappingStart
  | flowMappingEnd
  | blockEntry
  | flowEntry
  | key
  | value
  | aliasName (name : String)
  | anchorName (name : String)
  | tag (handle suffix : String)
  | scalar (text : String) (style : ScalarStyle)
  deriving DecidableEq, Inhabited

/-- A token at its place. -/
structure Lexeme where
  /-- The token. -/
  token : Token
  /-- Where it begins. -/
  start : Mark
  /-- Where it ends. -/
  stop : Mark
  deriving Inhabited

end ProviderAssets.Yaml
