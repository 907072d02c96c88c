/-
Registries with the built-in languages and configured aliases.
-/
import Polyglot.Config
import Polyglot.Registry.Load

namespace Polyglot
namespace Registry

def registerAll (r : Registry) (rows : List Row) : Except Fault Registry :=
  rows.foldlM register r

def builtin : Registry :=
  match registerAll empty Row.builtin with
  | .ok r => r
  | .error _ => empty

/-- Routes the extensions of a configuration; entries for unknown languages are passed over. -/
def addAliases : List (String × String) → Action Registry Unit
  | [] => pure ()
  | (ext, name) :: rest => do
      match Language.ofName? name with
      | none => Action.say (.aliasIgnored ext name)
      | some language =>
          let r ← Action.state
          Action.replace (← Action.ofExcept ((r.addAlias ext language).mapError .registry))
      addAliases rest

def build (config : Config) : Outcome Registry Unit := addAliases config.extensions builtin

end Registry
end Polyglot
