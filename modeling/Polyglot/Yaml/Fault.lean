/-
What can go wrong while a document is read.
-/

namespace Polyglot
namespace Yaml

/-- A document is malformed, or it is well formed and a scalar does not convert to what its tag or
its form promises. -/
inductive Fault where
  | malformed
  | versionTooLong
  | noSuchCharacter
  | characterTooLarge
  | notANumber
  | missingDigits
  | numberTooLarge
  | unknownTruth
  | notATimestamp
  | mappingAsTime
  | impossibleTime
deriving DecidableEq, Repr

end Yaml
end Polyglot
