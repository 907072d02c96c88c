/-
Values of configuration data, their text and the merging of tables.
-/
import Polyglot.Data.Scalar
import Polyglot.Table

namespace Polyglot

/-- Configuration data.  A collection that holds itself is cut where it comes round again. -/
inductive Value where
  | scalar (s : Scalar)
  | list (items : List Value)
  | map (entries : List (Scalar × Value))
  | set (items : List Scalar)
  | pair (first second : Value)
  | again (kind : Kind)

abbrev Section := Table Scalar Value

namespace Value

def kind : Value → Kind
  | scalar s => s.kind
  | list _ => .list
  | map _ => .map
  | set _ => .set
  | pair _ _ => .pair
  | again kind => kind

def isVoid : Value → Bool
  | scalar s => s.isVoid
  | list items => items.isEmpty
  | map entries => entries.isEmpty
  | set items => items.isEmpty
  | pair _ _ => false
  | again _ => false

mutual
def shown : Value → String
  | scalar s => s.shown
  | list items => "[" ++ ", ".intercalate (shownItems items) ++ "]"
  | map entries => "\x7b" ++ ", ".intercalate (shownEntries entries) ++ "\x7d"
  | set [] => "set()"
  | set items => "\x7b" ++ ", ".intercalate (items.map Scalar.shown) ++ "\x7d"
  | pair first second => "(" ++ shown first ++ ", " ++ shown second ++ ")"
  | again kind => if kind = .map then "\x7b...\x7d" else "[...]"
def shownItems : List Value → List String
  | [] => []
  | v :: rest => shown v :: shownItems rest
def shownEntries : List (Scalar × Value) → List String
  | [] => []
  | (k, v) :: rest => (k.shown ++ ": " ++ shown v) :: shownEntries rest
end

def plain : Value → String
  | scalar s => s.plain
  | v => v.shown

mutual
/-- Writes the entries of a table over those of `base`; where both hold a table, the two are
merged in turn. -/
def merge (base : Section) : List (Scalar × Value) → Section
  | [] => base
  | (k, v) :: rest => merge (Table.insert base k (override (Table.find? base k) v)) rest
def override (old : Option Value) : Value → Value
  | map entries =>
      match old with
      | some (map base) => map (merge base entries)
      | _ => map entries
  | v => v
end

end Value
end Polyglot
