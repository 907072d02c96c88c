/-
The extension of a file path.
-/
import Polyglot.Text.Split

namespace Polyglot
namespace Path

/-- The components that name something: the pieces between slashes that are neither empty nor a
single dot. -/
def components (path : String) : List (List Char) :=
  (Text.split '/' path.toList).filter fun piece => !(piece.isEmpty || piece == ['.'])

/-- The part of a file name after its last dot, if there is something before and after that dot. -/
def nameExtension? (name : List Char) : Option (List Char) :=
  let reversed := name.reverse
  match reversed.takeWhile (· ≠ '.'), reversed.dropWhile (· ≠ '.') with
  | ext@(_ :: _), _ :: _ :: _ => some ext.reverse
  | _, _ => none

/-- The extension of a path is that of its last component. -/
def extension? (path : String) : Option String :=
  ((components path).getLast?.bind nameExtension?).map String.ofList

end Path
end Polyglot
