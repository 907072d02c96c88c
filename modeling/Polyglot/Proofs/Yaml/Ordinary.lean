/-
Documents within the limits of an interpreter.

A text is read here as a whole, its nodes may lie as deep as they like, a number may have any number of
digits, a code for half a character is replaced, and each alias is a copy of its own.  An interpreter
reads a long text piece by piece and scans the first piece before it has seen the others, its stack has
an end, it does not print numbers of thousands of digits, it keeps half characters, and all aliases of
a node are one object, which merging changes.  For a text that is ordinary none of this can be told.
-/
import Polyglot.Settings.Store

namespace Polyglot
namespace Yaml

namespace Token

def opens : Token → Bool
  | blockSequenceStart | blockMappingStart | flowSequenceStart | flowMappingStart => true
  | _ => false

end Token

namespace Node

mutual

/-- The nodes lie on no more levels than given, and `p` holds of each. -/
def allWithin (p : Node → Bool) (levels : Nat) : Node → Bool
  | scalar tag text => p (scalar tag text)
  | again isMapping => p (again isMapping)
  | sequence tag items =>
      p (sequence tag items) && levels != 0 && allItems p (levels - 1) items
  | mapping tag entries =>
      p (mapping tag entries) && levels != 0 && allEntries p (levels - 1) entries

def allItems (p : Node → Bool) (levels : Nat) : List Node → Bool
  | [] => true
  | n :: rest => allWithin p levels n && allItems p levels rest

def allEntries (p : Node → Bool) (levels : Nat) : List (Node × Node) → Bool
  | [] => true
  | (k, v) :: rest =>
      allWithin p levels k && allWithin p levels v && allEntries p levels rest

end

/-- A scalar whose number, if it is one, has no more digits than are printed. -/
def isPrintable (n : Node) : Bool :=
  match n.tag?, n.text? with
  | some tag, some text =>
      match n.asScalar tag text with
      | .ok (.int i) => (Nat.toDigits 10 i.natAbs).length ≤ Numeral.maxDecimalDigits
      | _ => true
  | _, _ => true

end Node

end Yaml

end Polyglot
