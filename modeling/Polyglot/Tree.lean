/-
Syntax trees as the classifier sees them.
-/

namespace Polyglot

/-- A node's kind and rows, with its place in the preorder of the tree. -/
structure Label where
  index : Nat
  kind : String
  startRow : Int
  endRow : Int
deriving DecidableEq, Repr

inductive Tree where
  | node (label : Label) (children : List Tree)

namespace Tree

def label : Tree → Label
  | node label _ => label

def children : Tree → List Tree
  | node _ children => children

mutual
def size : Tree → Nat
  | node _ children => forestSize children + 1
def forestSize : List Tree → Nat
  | [] => 0
  | t :: ts => size t + forestSize ts
end

@[simp] theorem forestSize_nil : forestSize [] = 0 := by simp [forestSize]

@[simp] theorem forestSize_cons (t : Tree) (ts : List Tree) :
    forestSize (t :: ts) = t.size + forestSize ts := by simp [forestSize]

theorem size_eq (t : Tree) : t.size = forestSize t.children + 1 := by
  cases t; simp [size, children]

theorem size_pos (t : Tree) : 0 < t.size := by
  rw [size_eq]; omega

/-- The trees of a list of labels in preorder, each with its depth: a node's children are the trees
right after it that lie deeper. -/
def forestOfPreorder : List (Nat × Label) → List (Nat × Tree)
  | [] => []
  | (depth, label) :: rest =>
      let trees := forestOfPreorder rest
      let below := trees.takeWhile fun t => decide (depth < t.1)
      (depth, node label (below.map Prod.snd)) :: trees.dropWhile fun t => decide (depth < t.1)

def ofPreorder? (labels : List (Nat × Label)) : Option Tree :=
  (forestOfPreorder labels).head?.map Prod.snd

end Tree
end Polyglot
