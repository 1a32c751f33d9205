set_option autoImplicit false

/-!
# Tokens of YAML

The pieces into which a YAML text is cut. Indentation shows as starts and ends of block collections.

## Main definitions

* `ScalarStyle` — how a scalar is written.
* `Token` — the kinds of tokens.
-/

namespace Taskflow.Yaml

/-- How a scalar is written. -/
inductive ScalarStyle where
  | plain
  | singleQuoted
  | doubleQuoted
  | literal
  | folded
  deriving Repr, DecidableEq, Inhabited

/-- A piece of a YAML text. -/
inductive Token where
  | versionDirective (major minor : Nat)
  | tagDirective (handle start : String)
  | documentStart
  | documentEnd
  | blockSequenceStart
  | blockMappingStart
  | blockEnd
  | flowSequenceStart
  | flowSequenceEnd
  | flowMappingStart
  | flowMappingEnd
  | blockEntry
  | flowEntry
  | key
  | value
  | alias (name : String)
  | anchor (name : String)
  | tag (handle suffix : String)
  | scalar (text : String) (style : ScalarStyle)
  deriving Repr, DecidableEq, Inhabited

end Taskflow.Yaml
