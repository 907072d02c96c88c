/-
Walks of one tree with different lists.

Two such walks part at the first node on which their lists differ, so they cannot be compared turn
by turn.  Both stand on the nodes that are to be reached, though, and those are picked from the one
preorder of the tree: with more kinds to expand more of it is picked (`reached_sublist`), and with
fewer kinds to ignore more of what is picked is marked.  The main statement is `tree_within`.
-/
import Mathlib.Data.List.Basic
import Polyglot.Proofs.Registry.Call
import Polyglot.Proofs.Tree.Loop
import Polyglot.Registry.Use

namespace Polyglot

namespace LineLists

/-- The other lists expand every kind that these expand, and ignore none that these do not. -/
structure Within (lists wider : LineLists) : Prop where
  expand : ∀ kind ∈ lists.expand, kind ∈ wider.expand
  ignore : ∀ kind ∈ wider.ignore, kind ∈ lists.ignore

/-- The lists with one more kind to expand. -/
def expanding (lists : LineLists) (kind : String) : LineLists :=
  { lists with expand := kind :: lists.expand }

/-- The lists with one more kind to ignore. -/
def ignoring (lists : LineLists) (kind : String) : LineLists :=
  { lists with ignore := kind :: lists.ignore }

theorem within_expanding (lists : LineLists) (kind : String) :
    lists.Within (lists.expanding kind) := by
  refine ⟨?_, ?_⟩
  · intro k hk
    exact List.mem_cons_of_mem kind hk
  · intro k hk
    exact hk

theorem ignoring_within (lists : LineLists) (kind : String) :
    (lists.ignoring kind).Within lists := by
  refine ⟨?_, ?_⟩
  · intro k hk
    exact hk
  · intro k hk
    exact List.mem_cons_of_mem kind hk

end LineLists

namespace Cursor

/-- What is reached depends on the kinds that are expanded, and on no others. -/
theorem reached_congr {lists lists' : LineLists} (h : lists.expand = lists'.expand)
    (start : Cursor) : reached lists start = reached lists' start := by
  have hreached : isReached lists start.trail.length = isReached lists' start.trail.length := by
    unfold isReached Crumb.isExpanded
    rw [h]
  rw [reached, reached, hreached]

theorem isReached_mono {lists wider : LineLists} (h : lists.Within wider) {level : Nat} {c : Cursor}
    (hc : isReached lists level c = true) : isReached wider level c = true := by
  rw [isReached, List.all_eq_true] at hc ⊢
  intro crumb hcrumb
  have hexp := hc crumb hcrumb
  rw [Crumb.isExpanded, List.contains_iff_mem] at hexp ⊢
  exact h.expand _ hexp

/-- With more kinds to expand, what was reached is reached in the same order. -/
theorem reached_sublist {lists wider : LineLists} (h : lists.Within wider) (start : Cursor) :
    (reached lists start).Sublist (reached wider start) := by
  apply List.monotone_filter_right
  intro c hc
  exact isReached_mono h hc

end Cursor

namespace Walk

open Cursor

/-- The nodes on which the cursor of the loop stands from its start to its return. -/
def Stands (lists : LineLists) (lines : Rows) (start : Cursor) (places : List Cursor) : Prop :=
  ∃ calls last, Loop.Runs lists (Loop.begin lines start) calls last ∧ last.turn? lists = none ∧
    start :: calls.filterMap Call.advance? = places

theorem stands_reached (lists : LineLists) (lines : Rows) (start : Cursor) :
    Stands lists lines start (reached lists start) := by
  obtain ⟨places, hplaces, calls, hruns, hcalls, -⟩ := Loop.tours_begin lists lines start
  refine ⟨calls, _, hruns, Loop.turn?_leaving_zero lists _ _, ?_⟩
  rw [hcalls, hplaces]

/-! ## Two walks -/

section Compared

variable {lists wider : LineLists} (h : lists.Within wider) (lines : Rows) (start : Cursor)
include h

theorem lines_tree_mono {row : Int} (hrow : row ∈ (tree lists lines start).1.lines) :
    row ∈ (tree wider lines start).1.lines := by
  rw [mem_lines_tree] at hrow ⊢
  rcases hrow with hgiven | ⟨c, hc, ⟨hkind, hignore⟩, hends⟩
  · exact .inl hgiven
  · refine .inr ⟨c, (reached_sublist h start).mem hc, ⟨hkind, ?_⟩, hends⟩
    intro hmem
    exact hignore (h.ignore _ hmem)

theorem visited_tree_sublist :
    (tree lists lines start).1.visited.Sublist (tree wider lines start).1.visited := by
  rw [visited_tree, visited_tree]
  exact (reached_sublist h start).map _

end Compared

end Walk

/-! ## The lists of a language -/

namespace Registry

/-- The registry with other lists for a language. -/
def relisted (r : Registry) (language : Language) (row : Row) (lists : LineLists) : Registry :=
  { r with rows := Table.insert r.rows language { row with lineLists := some lists } }

theorem classify_result {r : Registry} {language : Language} {row : Row}
    (h : Table.find? r.rows language = some row) (c : Cursor) :
    (classify language c r).result = .ok ((Walk.tree row.effectiveLineLists [] c).1, c) := by
  have hrow : (rowAction language r).result = .ok row := by
    rw [rowAction_eq, h]
  have hpair : Walk.tree row.effectiveLineLists [] c =
      ((Walk.tree row.effectiveLineLists [] c).1, c) :=
    Prod.ext rfl (Walk.cursor_tree _ _ _)
  rw [classify, Action.bind_of_ok hrow, ← hpair]
  rfl

theorem classify_relisted_result (r : Registry) (language : Language) (row : Row)
    (lists : LineLists) (c : Cursor) :
    (classify language c (r.relisted language row lists)).result =
      .ok ((Walk.tree lists [] c).1, c) := by
  have hfind : Table.find? (r.relisted language row lists).rows language =
      some { row with lineLists := some lists } := Table.find?_insert_self r.rows language _
  exact classify_result hfind c

end Registry

namespace Walk

open Registry (classify)

/-- A walk with lists that expand more kinds and ignore fewer collects every row that the other one
collects, and the nodes that the other one stands on are some of its own, in the same order.  So one
more kind to expand loses no significant line of a language, and one more kind to ignore adds none
and leads the walk over the same nodes. -/
theorem tree_within {lists wider : LineLists} (hwithin : lists.Within wider) (lines : Rows)
    (start : Cursor) :
    (∀ row ∈ (tree lists lines start).1.lines, row ∈ (tree wider lines start).1.lines) ∧
    (tree lists lines start).1.visited.Sublist (tree wider lines start).1.visited ∧
    (∃ places places', Stands lists lines start places ∧ Stands wider lines start places' ∧
      places.Sublist places') ∧
    ∀ (r : Registry) (language : Language) (row : Row), Table.find? r.rows language = some row →
      ∀ kind, ∃ walk more fewer : Walk,
        (classify language start r).result = .ok (walk, start) ∧
        (classify language start
          (r.relisted language row (row.effectiveLineLists.expanding kind))).result =
            .ok (more, start) ∧
        (classify language start
          (r.relisted language row (row.effectiveLineLists.ignoring kind))).result =
            .ok (fewer, start) ∧
        (∀ line ∈ walk.lines, line ∈ more.lines) ∧
        (∀ line ∈ fewer.lines, line ∈ walk.lines) ∧
        fewer.visited = walk.visited ∧
        ∃ places, Stands row.effectiveLineLists [] start places ∧
          Stands (row.effectiveLineLists.ignoring kind) [] start places := by
  refine ⟨fun row hrow => lines_tree_mono hwithin lines start hrow,
    visited_tree_sublist hwithin lines start,
    ⟨_, _, stands_reached lists lines start, stands_reached wider lines start,
      Cursor.reached_sublist hwithin start⟩, ?_⟩
  intro r language row hrow kind
  have hreached : Cursor.reached (row.effectiveLineLists.ignoring kind) start =
      Cursor.reached row.effectiveLineLists start := Cursor.reached_congr rfl start
  refine ⟨_, _, _, Registry.classify_result hrow start,
    Registry.classify_relisted_result r language row _ start,
    Registry.classify_relisted_result r language row _ start, ?_, ?_, ?_, ?_⟩
  · intro line hline
    exact lines_tree_mono (LineLists.within_expanding _ kind) [] start hline
  · intro line hline
    exact lines_tree_mono (LineLists.ignoring_within _ kind) [] start hline
  · rw [visited_tree, visited_tree, hreached]
  · refine ⟨_, stands_reached row.effectiveLineLists [] start, ?_⟩
    rw [← hreached]
    exact stands_reached _ [] start

/-- With lists that expand one more kind and ignore nothing the sample's walk keeps its rows, and so
does a language with the sample's lists that expands one more kind. -/
theorem tree_within_sample :
    let wider : LineLists := { expand := ["line", "block"], ignore := [] }
    let row : Row :=
      { language := .rust, name := "Rust", extensions := [], grammarModule := "rust",
        lineLists := some Sample.lists }
    let r : Registry := { rows := [(.rust, row)] }
    Sample.lists.Within wider ∧
      Table.find? r.rows .rust = some row ∧
      (∀ line ∈ (tree Sample.lists [0] Sample.block).1.lines,
        line ∈ (tree wider [0] Sample.block).1.lines) ∧
      ∃ walk more : Walk,
        (classify .rust Sample.block r).result = .ok (walk, Sample.block) ∧
        (classify .rust Sample.block
          (r.relisted .rust row (Sample.lists.expanding "line"))).result =
            .ok (more, Sample.block) ∧
        ∀ line ∈ walk.lines, line ∈ more.lines := by
  intro wider row r
  have hwithin : Sample.lists.Within wider := by
    refine ⟨?_, ?_⟩
    · intro kind hkind
      exact List.mem_cons_of_mem _ hkind
    · intro kind hkind
      exact absurd hkind List.not_mem_nil
  have hrow : Table.find? r.rows .rust = some row := rfl
  have h := tree_within hwithin [0] Sample.block
  obtain ⟨walk, more, fewer, hwalk, hmore, -, hlines, -⟩ := h.2.2.2 r .rust row hrow "line"
  exact ⟨hwithin, hrow, h.1, walk, more, hwalk, hmore, hlines⟩

end Walk
end Polyglot
