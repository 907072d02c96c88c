/-
The walk that collects the significant lines of a tree.

The walk goes depth first from where the cursor stands.  It counts how far below its start it is,
so it never leaves the subtree it started on, and it ends where it began.
-/
import Polyglot.Language.Row
import Polyglot.Text.Blank
import Polyglot.Tree.Cursor

namespace Polyglot

/-- A set of rows, ascending and without repetition. -/
abbrev Rows := List Int

namespace Rows

def insert : Rows → Int → Rows
  | [], row => [row]
  | r :: rest, row =>
      if row < r then row :: r :: rest else if row = r then r :: rest else r :: insert rest row

def ofList (rows : List Int) : Rows := rows.foldl insert []

end Rows

namespace Tree

def kind (t : Tree) : String := Text.strip t.label.kind

/-- A node counts unless its kind is blank or ignored. -/
def isMarked (lists : LineLists) (t : Tree) : Bool :=
  !(t.kind.isEmpty || lists.ignore.contains t.kind)

def isExpanded (lists : LineLists) (t : Tree) : Bool := lists.expand.contains t.kind

end Tree

/-- What a walk has collected: the rows that count and the nodes it stood on, latest first. -/
structure Walk where
  lines : Rows
  visited : List Label

namespace Walk

/-- Stands on a node: marks its first and last row if it counts. -/
def stand (lists : LineLists) (w : Walk) (t : Tree) : Walk :=
  { lines :=
      if t.isMarked lists then (w.lines.insert t.label.startRow).insert t.label.endRow else w.lines,
    visited := t.label :: w.visited }

/-- Goes up from a node at a given depth until there is a next sibling, and moves to it.  Without a
depth the cursor has come back to the start of the walk. -/
def climb : Nat → Cursor → Cursor × Option Nat
  | 0, c => (c, none)
  | depth + 1, c =>
      match c.nextSibling? with
      | some sibling => (sibling, some (depth + 1))
      | none =>
          match c.parent? with
          | some parent => climb depth parent
          | none => climb depth c

/-- The nodes to the right of the cursor's way down, as far up as the walk goes. -/
def pending : Nat → List Crumb → Nat
  | 0, _ => 0
  | _ + 1, [] => 0
  | depth + 1, crumb :: trail => Tree.forestSize crumb.after + pending depth trail

/-- The number of nodes that the walk may still stand on. -/
def remaining (c : Cursor) (depth : Nat) : Nat := c.focus.size + pending depth c.trail

@[simp] theorem pending_nil (depth : Nat) : pending depth [] = 0 := by
  cases depth <;> rfl

theorem remaining_firstChild {c child : Cursor} (depth : Nat) (h : c.firstChild? = some child) :
    remaining child (depth + 1) < remaining c depth := by
  obtain ⟨⟨label, children⟩, trail⟩ := c
  cases children with
  | nil => simp [Cursor.firstChild?] at h
  | cons t ts =>
    simp only [Cursor.firstChild?, Option.some.injEq] at h
    subst h
    simp [remaining, pending, Tree.size_eq (Tree.node _ _), Tree.children]
    omega

theorem remaining_climb {depth : Nat} {c next : Cursor} {depth' : Nat}
    (h : climb depth c = (next, some depth')) : remaining next depth' ≤ pending depth c.trail := by
  induction depth generalizing c with
  | zero => simp [climb] at h
  | succ depth ih =>
    obtain ⟨focus, trail⟩ := c
    cases trail with
    | nil =>
      have := ih (c := ⟨focus, []⟩) (by simpa [climb, Cursor.nextSibling?, Cursor.parent?] using h)
      simpa using this
    | cons crumb trail =>
      obtain ⟨label, before, after⟩ := crumb
      cases after with
      | nil =>
        have := ih (by simpa [climb, Cursor.nextSibling?, Cursor.parent?] using h)
        simpa [pending] using this
      | cons t ts =>
        simp only [climb, Cursor.nextSibling?, Prod.mk.injEq, Option.some.injEq] at h
        obtain ⟨rfl, rfl⟩ := h
        simp [remaining, pending]
        omega

def run (lists : LineLists) (w : Walk) (c : Cursor) (depth : Nat) : Walk × Cursor :=
  let w := w.stand lists c.focus
  match hd : if c.focus.isExpanded lists then c.firstChild? else none with
  | some child => run lists w child (depth + 1)
  | none =>
      match _hc : climb depth c with
      | (next, some depth') => run lists w next depth'
      | (last, none) => (w, last)
termination_by remaining c depth
decreasing_by
  · split at hd
    · exact remaining_firstChild depth hd
    · simp at hd
  · have := remaining_climb _hc
    have := c.focus.size_pos
    simp only [remaining] at *
    omega

def tree (lists : LineLists) (lines : Rows) (c : Cursor) : Walk × Cursor :=
  let (w, last) := run lists { lines, visited := [] } c 0
  ({ w with visited := w.visited.reverse }, last)

end Walk
end Polyglot
