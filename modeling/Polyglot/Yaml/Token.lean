/-
Tokens of YAML text.
-/

namespace Polyglot
namespace Yaml

inductive Directive where
  | version (major : Nat)
  | tag (handle start : String)
  | reserved
deriving DecidableEq, Repr

/-- A tag as it is written: a handle, unless it is spelled out in full, and what follows. -/
structure TagText where
  handle : Option String
  suffix : String
deriving DecidableEq, Repr

inductive Token where
  | streamEnd
  | directive (d : Directive)
  | documentStart
  | documentEnd
  | blockSequenceStart
  | blockMappingStart
  | blockEnd
  | flowSequenceStart
  | flowSequenceEnd
  | flowMappingStart
  | flowMappingEnd
  | blockEntry
  | flowEntry
  | key
  | value
  | alias (name : String)
  | anchor (name : String)
  | tag (t : TagText)
  | scalar (text : String) (plain : Bool)
deriving DecidableEq, Repr

end Yaml
end Polyglot
