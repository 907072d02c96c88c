/-
A place in a tree from which one can move to the nodes around it.
-/
import Polyglot.Tree

namespace Polyglot

/-- One step of the way down: the node that was left and the siblings on both sides of the child
that was entered.  The siblings before it stand nearest first. -/
structure Crumb where
  label : Label
  before : List Tree
  after : List Tree

structure Cursor where
  focus : Tree
  trail : List Crumb

namespace Cursor

def ofTree (t : Tree) : Cursor := { focus := t, trail := [] }

def firstChild? (c : Cursor) : Option Cursor :=
  match c.focus with
  | .node _ [] => none
  | .node label (child :: rest) =>
      some { focus := child, trail := { label, before := [], after := rest } :: c.trail }

def nextSibling? (c : Cursor) : Option Cursor :=
  match c.trail with
  | { label, before, after := next :: rest } :: trail =>
      some { focus := next, trail := { label, before := c.focus :: before, after := rest } :: trail }
  | _ => none

def parent? (c : Cursor) : Option Cursor :=
  match c.trail with
  | [] => none
  | { label, before, after } :: trail =>
      some { focus := .node label (before.reverse ++ c.focus :: after), trail }

mutual
/-- The cursors on all nodes of a tree, in preorder. -/
def below (trail : List Crumb) : Tree → List Cursor
  | .node label children =>
      { focus := .node label children, trail } :: belowForest label [] trail children
def belowForest (label : Label) (before : List Tree) (trail : List Crumb) : List Tree → List Cursor
  | [] => []
  | t :: ts =>
      below ({ label, before, after := ts } :: trail) t ++ belowForest label (t :: before) trail ts
end

def at? (t : Tree) (index : Nat) : Option Cursor := (below [] t)[index]?

end Cursor
end Polyglot
