/-
Faults of registration and look-up.
-/
import Polyglot.Language

namespace Polyglot
namespace Registry

inductive Fault where
  | noRow (language : Language)
  | registerTaken (ext : String) (owner language : Language)
  | aliasTaken (ext : String) (owner language : Language)
deriving DecidableEq, Repr

namespace Fault

def message : Fault → String
  | noRow language => "No configuration registered for " ++ language.tag
  | registerTaken ext owner language =>
      "Extension " ++ ext ++ " already registered to " ++ owner.name ++ ", cannot register to " ++
        language.name
  | aliasTaken ext owner language =>
      "Extension " ++ ext ++ " already registered to " ++ owner.name ++ ", cannot alias to " ++
        language.name

end Fault
end Registry
end Polyglot
