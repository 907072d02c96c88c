/-
Sets of characters given by ranges of code points.
-/

namespace Polyglot
namespace Text

/-- Closed ranges of code points, ascending and apart. -/
abbrev Ranges := List (Nat × Nat)

namespace Ranges

/-- Ranges ascend, so a look-up stops at the first range that ends at or after the code point. -/
def holds : Ranges → Nat → Bool
  | [], _ => false
  | (first, last) :: rest, n => if n ≤ last then decide (first ≤ n) else holds rest n

end Ranges

/-- The members of a range that is walked in steps, each moved so that `first` goes to `image`. -/
structure Shift where
  first : Nat
  last : Nat
  stride : Nat
  image : Nat

namespace Shift

def moves (s : Shift) (n : Nat) : Bool :=
  decide (s.first ≤ n) && decide (n ≤ s.last) && decide ((n - s.first) % s.stride = 0)

def apply (s : Shift) (n : Nat) : Nat := s.image + (n - s.first)

end Shift

end Text
end Polyglot
