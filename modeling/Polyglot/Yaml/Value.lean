/-
From the nodes of a document to its value.

Collections are filled level by level, so of several faults the one nearest to the root is
reported, and among those of one level the first.
-/
import Polyglot.Data.Value
import Polyglot.Yaml.Node
import Polyglot.Yaml.Scalar

namespace Polyglot
namespace Yaml

/-- A value, or a fault with the level it lies on. -/
abbrev Built (α : Type) := Except (Nat × Fault) α

namespace Built

/-- Both results; of two faults the one on the lower level, the first if they lie on one. -/
def both {α β : Type} (x : Built α) (y : Built β) : Built (α × β) :=
  match x, y with
  | .ok a, .ok b => .ok (a, b)
  | .error e, .ok _ => .error e
  | .ok _, .error e => .error e
  | .error e, .error e' => .error (if e'.1 < e.1 then e' else e)

def all {α : Type} : List (Built α) → Built (List α)
  | [] => .ok []
  | x :: rest => (both x (all rest)).map fun (a, more) => a :: more

end Built

structure Entry where
  key : Built Scalar
  value : Built Value

namespace Entry

def build (e : Entry) : Built (Scalar × Value) := Built.both e.key e.value

end Entry

namespace Node

def isMerge (n : Node) : Bool := n.tag? == some .merge

/-- The text of a node that is to be a scalar.  A mapping may give it as its default value. -/
def text? : Node → Option String
  | scalar _ text => some text
  | mapping _ entries => defaultText? entries
  | _ => none
where
  defaultText? : List (Node × Node) → Option String
    | [] => none
    | (k, v) :: rest => if k.tag? == some .value then text? v else defaultText? rest

/-- The scalar that a node with a text stands for.  A mapping is no time, whatever its text. -/
def asScalar (tag : Tag) (n : Node) (text : String) : Except Fault Scalar :=
  match tag, n with
  | .timestamp, mapping _ _ => .error .mappingAsTime
  | _, _ => toScalar tag text

def toScalarAt (level : Nat) (tag : Tag) (n : Node) : Built Scalar :=
  match n.text? with
  | none => .error (level, .malformed)
  | some text =>
      match n.asScalar tag text with
      | .ok s => .ok s
      | .error fault => .error (level, fault)

/-- Only scalars can be keys.  The default sign as a key is a text like any other. -/
def toKey (level : Nat) (n : Node) : Built Scalar :=
  match n.tag? with
  | some .value => toScalarAt level .str n
  | some tag => toScalarAt level tag n
  | none => .error (level, .malformed)

mutual

def toValue (level : Nat) : Node → Built Value
  | again isMapping => .ok (.again (if isMapping then .map else .list))
  | scalar tag text =>
      match tag with
      | .seq | .map | .set | .omap | .pairs => .error (level + 1, .malformed)
      | _ => (toScalarAt level tag (scalar tag text)).map .scalar
  | sequence tag items =>
      match tag with
      | .seq => (Built.all (toValues (level + 1) items)).map .list
      | .omap | .pairs => (Built.all (toPairs (level + 1) items)).map .list
      | .map | .set => .error (level + 1, .malformed)
      | _ => .error (level, .malformed)
  | mapping tag entries =>
      match tag with
      | .map =>
          match toEntries (level + 1) entries with
          | none => .error (level + 1, .malformed)
          | some (merged, own) =>
              (Built.all ((merged ++ own).map Entry.build)).map fun es => .map (Table.ofList es)
      | .set =>
          match toEntries (level + 1) entries with
          | none => .error (level + 1, .malformed)
          | some (merged, own) =>
              (Built.all ((merged ++ own).map Entry.build)).map fun es =>
                .set (Table.keys (Table.ofList es))
      | .seq | .omap | .pairs => .error (level + 1, .malformed)
      | _ => (toScalarAt level tag (mapping tag entries)).map .scalar

def toValues (level : Nat) : List Node → List (Built Value)
  | [] => []
  | n :: rest => toValue level n :: toValues level rest

/-- Items that are mappings of one entry, as pairs. -/
def toPairs (level : Nat) : List Node → List (Built Value)
  | [] => []
  | n :: rest => toPair level n :: toPairs level rest

def toPair (level : Nat) : Node → Built Value
  | mapping _ [(k, v)] => (Built.both (toValue level k) (toValue level v)).map fun (a, b) => .pair a b
  | _ => .error (level, .malformed)

/-- The entries of a mapping: those of the mappings merged into it, and its own. -/
def toEntries (level : Nat) : List (Node × Node) → Option (List Entry × List Entry)
  | [] => some ([], [])
  | (k, v) :: rest =>
      if k.isMerge then
        match toMerged level v, toEntries level rest with
        | some entries, some (merged, own) => some (entries ++ merged, own)
        | _, _ => none
      else
        match toEntries level rest with
        | some (merged, own) =>
            some (merged, { key := toKey level k, value := toValue level v } :: own)
        | none => none

/-- The entries that a mapping, or each of a list of mappings, gives to the one it is merged into.
Of a list, the last comes first, so that the first has the last word. -/
def toMerged (level : Nat) : Node → Option (List Entry)
  | mapping _ entries =>
      match toEntries level entries with
      | some (merged, own) => some (merged ++ own)
      | none => none
  | sequence _ items => toMergedAll level items
  | _ => none

def toMergedAll (level : Nat) : List Node → Option (List Entry)
  | [] => some []
  | n :: rest =>
      match n with
      | mapping _ entries =>
          match toEntries level entries, toMergedAll level rest with
          | some (merged, own), some later => some (later ++ (merged ++ own))
          | _, _ => none
      | _ => none

end

end Node
end Yaml
end Polyglot
