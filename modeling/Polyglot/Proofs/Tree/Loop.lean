/-
The walk as a loop over the calls of its cursor.

`Loop.turn?` takes one turn of the loop: it looks at the node of the cursor, or goes on from it.  A
turn lists the calls it makes, each with the place the cursor moved to, so a run of the loop shows
every node the cursor was sent to and every call that failed.  Two facts join here: a run ends with
what `Walk.run` gives (`runs_run`), and between arriving at a node and leaving it the loop makes the
recursive walk of that node (`tours_visits`).
-/
import Polyglot.Proofs.Tree.Reach

namespace Polyglot

theorem Rows.mem_insert {row r : Int} {rows : Rows} :
    r ∈ rows.insert row ↔ r = row ∨ r ∈ rows := by
  induction rows with
  | nil => simp [Rows.insert]
  | cons first rest ih =>
      rw [Rows.insert]
      by_cases hlt : row < first
      · rw [if_pos hlt, List.mem_cons]
      · rw [if_neg hlt]
        by_cases heq : row = first
        · rw [if_pos heq, heq, List.mem_cons]
          exact ⟨.inr, fun h => h.elim .inl id⟩
        · rw [if_neg heq, List.mem_cons, ih, List.mem_cons]
          exact or_left_comm

namespace Walk

open Cursor

/-! ## Standing on several nodes -/

def standAll (lists : LineLists) (w : Walk) (places : List Cursor) : Walk :=
  places.foldl (fun w c => w.stand lists c.focus) w

theorem standAll_cons (lists : LineLists) (w : Walk) (c : Cursor) (places : List Cursor) :
    standAll lists w (c :: places) = standAll lists (w.stand lists c.focus) places := by
  rw [standAll, List.foldl_cons, standAll]

theorem standAll_append (lists : LineLists) (w : Walk) (a b : List Cursor) :
    standAll lists w (a ++ b) = standAll lists (standAll lists w a) b :=
  List.foldl_append

theorem visited_standAll (lists : LineLists) (w : Walk) (places : List Cursor) :
    (standAll lists w places).visited = (places.map (·.focus.label)).reverse ++ w.visited := by
  induction places generalizing w with
  | nil => rfl
  | cons c rest ih =>
      rw [standAll_cons, ih, List.map_cons, List.reverse_cons, List.append_assoc]
      rfl

theorem isMarked_iff (lists : LineLists) (t : Tree) :
    t.isMarked lists = true ↔ t.kind ≠ "" ∧ t.kind ∉ lists.ignore := by
  simp [Tree.isMarked]

theorem mem_lines_stand {lists : LineLists} {w : Walk} {t : Tree} {row : Int} :
    row ∈ (w.stand lists t).lines ↔
      row ∈ w.lines ∨ (t.kind ≠ "" ∧ t.kind ∉ lists.ignore) ∧
        (row = t.label.startRow ∨ row = t.label.endRow) := by
  rw [stand, ← isMarked_iff]
  by_cases hm : t.isMarked lists = true
  · rw [if_pos hm, Rows.mem_insert, Rows.mem_insert]
    constructor
    · rintro (h | h | h)
      · exact .inr ⟨hm, .inr h⟩
      · exact .inr ⟨hm, .inl h⟩
      · exact .inl h
    · rintro (h | ⟨_, h | h⟩)
      · exact .inr (.inr h)
      · exact .inr (.inl h)
      · exact .inl h
  · rw [if_neg hm]
    exact ⟨.inl, fun h => h.elim id fun h => absurd h.1 hm⟩

theorem mem_lines_standAll {lists : LineLists} {w : Walk} {places : List Cursor} {row : Int} :
    row ∈ (standAll lists w places).lines ↔
      row ∈ w.lines ∨ ∃ c ∈ places, (c.focus.kind ≠ "" ∧ c.focus.kind ∉ lists.ignore) ∧
        (row = c.focus.label.startRow ∨ row = c.focus.label.endRow) := by
  induction places generalizing w with
  | nil => simp [standAll]
  | cons c rest ih =>
      rw [standAll_cons, ih, mem_lines_stand, or_assoc]
      simp only [List.mem_cons, exists_eq_or_imp]

/-! ## Turns -/

/-- A call of the cursor, with the place it moved to if it moved. -/
inductive Call where
  | firstChild (target : Option Cursor)
  | nextSibling (target : Option Cursor)
  | parent (target : Option Cursor)

/-- The node that a call brings into view for the first time. -/
def Call.advance? : Call → Option Cursor
  | firstChild target => target
  | nextSibling target => target
  | parent _ => none

inductive Stage where
  | arrived
  | leaving

structure Loop where
  stage : Stage
  walk : Walk
  cursor : Cursor
  depth : Nat

namespace Loop

def begin (lines : Rows) (start : Cursor) : Loop :=
  { stage := .arrived, walk := { lines, visited := [] }, cursor := start, depth := 0 }

/-- One turn: the calls it makes and what it leaves, or nothing where the loop returns.  A call for
the parent that fails leaves the cursor where it is, and the depth is counted down all the same. -/
def turn? (lists : LineLists) (s : Loop) : Option (List Call × Loop) :=
  match s.stage with
  | .arrived =>
      let walk := s.walk.stand lists s.cursor.focus
      if s.cursor.focus.isExpanded lists then
        match s.cursor.firstChild? with
        | some child =>
            some ([.firstChild (some child)],
              { stage := .arrived, walk, cursor := child, depth := s.depth + 1 })
        | none => some ([.firstChild none], { s with stage := .leaving, walk })
      else some ([], { s with stage := .leaving, walk })
  | .leaving =>
      match s.depth with
      | 0 => none
      | depth + 1 =>
          match s.cursor.nextSibling? with
          | some sibling =>
              some ([.nextSibling (some sibling)], { s with stage := .arrived, cursor := sibling })
          | none =>
              some ([.nextSibling none, .parent s.cursor.parent?],
                { s with cursor := s.cursor.parent?.getD s.cursor, depth })

/-- Some turns, one after the other, with all the calls they make. -/
inductive Runs (lists : LineLists) : Loop → List Call → Loop → Prop where
  | done (s : Loop) : Runs lists s [] s
  | turn {s next last : Loop} {calls more : List Call} (h : s.turn? lists = some (calls, next))
      (rest : Runs lists next more last) : Runs lists s (calls ++ more) last

theorem Runs.trans {lists : LineLists} {s t u : Loop} {a b : List Call} (h : Runs lists s a t)
    (h' : Runs lists t b u) : Runs lists s (a ++ b) u := by
  induction h with
  | done s => exact h'
  | turn hturn _ ih =>
      rw [List.append_assoc]
      exact .turn hturn (ih h')

/-- The loop has one way to return. -/
theorem Runs.unique {lists : LineLists} {s t u : Loop} {a b : List Call} (h : Runs lists s a t)
    (ht : t.turn? lists = none) (h' : Runs lists s b u) (hu : u.turn? lists = none) : t = u := by
  induction h generalizing b with
  | done s =>
      cases h' with
      | done => rfl
      | turn hturn _ => rw [ht] at hturn; cases hturn
  | turn hturn _ ih =>
      cases h' with
      | done => rw [hu] at hturn; cases hturn
      | turn hturn' rest' =>
          rw [hturn, Option.some.injEq, Prod.mk.injEq] at hturn'
          obtain ⟨_, rfl⟩ := hturn'
          exact ih ht rest'

/-! ## The loop and the walk that runs -/

theorem turn?_arrived_child {lists : LineLists} {w : Walk} {c child : Cursor} {depth : Nat}
    (hexp : c.focus.isExpanded lists = true) (hchild : c.firstChild? = some child) :
    turn? lists ⟨.arrived, w, c, depth⟩ =
      some ([.firstChild (some child)], ⟨.arrived, w.stand lists c.focus, child, depth + 1⟩) := by
  simp only [turn?, if_pos hexp, hchild]

/-- A node without children, or without expansion, is left without a move. -/
theorem turn?_arrived_leaf {lists : LineLists} {w : Walk} {c : Cursor} {depth : Nat}
    (h : (if c.focus.isExpanded lists then c.firstChild? else none) = none) :
    ∃ calls, turn? lists ⟨.arrived, w, c, depth⟩ =
        some (calls, ⟨.leaving, w.stand lists c.focus, c, depth⟩) ∧
      calls.filterMap Call.advance? = [] ∧ ∀ target, Call.parent target ∉ calls := by
  by_cases hexp : c.focus.isExpanded lists = true
  · rw [if_pos hexp] at h
    refine ⟨[.firstChild none], ?_, rfl, fun target hmem => ?_⟩
    · simp only [turn?, if_pos hexp, h]
    · rw [List.mem_singleton] at hmem
      cases hmem
  · refine ⟨[], ?_, rfl, fun _ => List.not_mem_nil⟩
    simp only [turn?, if_neg hexp]

theorem turn?_leaving_sibling {lists : LineLists} {w : Walk} {c sibling : Cursor} {depth : Nat}
    (h : c.nextSibling? = some sibling) :
    turn? lists ⟨.leaving, w, c, depth + 1⟩ =
      some ([.nextSibling (some sibling)], ⟨.arrived, w, sibling, depth + 1⟩) := by
  simp only [turn?, h]

theorem turn?_leaving_parent {lists : LineLists} {w : Walk} {c : Cursor} {depth : Nat}
    (h : c.nextSibling? = none) :
    turn? lists ⟨.leaving, w, c, depth + 1⟩ =
      some ([.nextSibling none, .parent c.parent?], ⟨.leaving, w, c.parent?.getD c, depth⟩) := by
  simp only [turn?, h]

theorem turn?_leaving_zero (lists : LineLists) (w : Walk) (c : Cursor) :
    turn? lists ⟨.leaving, w, c, 0⟩ = none := rfl

/-- The inner loop makes the moves of `climb`. -/
theorem runs_climb (lists : LineLists) (w : Walk) (depth : Nat) (c : Cursor) :
    ∃ calls, Runs lists ⟨.leaving, w, c, depth⟩ calls
      (match climb depth c with
        | (next, some depth') => ⟨.arrived, w, next, depth'⟩
        | (last, none) => ⟨.leaving, w, last, 0⟩) := by
  induction depth generalizing c with
  | zero => exact ⟨[], .done _⟩
  | succ depth ih =>
      cases hs : c.nextSibling? with
      | some sibling =>
          rw [climb, hs]
          exact ⟨_, .turn (turn?_leaving_sibling hs) (.done _)⟩
      | none =>
          obtain ⟨calls, hruns⟩ := ih (c.parent?.getD c)
          have hclimb : climb (depth + 1) c = climb depth (c.parent?.getD c) := by
            rw [climb, hs]
            cases c.parent? <;> rfl
          rw [hclimb]
          exact ⟨_, .turn (turn?_leaving_parent hs) hruns⟩

/-- The loop returns, with what the walk comes to. -/
theorem runs_run (lists : LineLists) (w : Walk) (c : Cursor) (depth : Nat) :
    ∃ calls, Runs lists ⟨.arrived, w, c, depth⟩ calls
      ⟨.leaving, (run lists w c depth).1, (run lists w c depth).2, 0⟩ := by
  fun_induction run lists w c depth with
  | case1 w c depth w' child hd ih =>
      obtain ⟨calls, hruns⟩ := ih
      by_cases hexp : c.focus.isExpanded lists = true
      · rw [dif_pos hexp] at hd
        exact ⟨_, .turn (turn?_arrived_child hexp hd) hruns⟩
      · rw [dif_neg hexp] at hd
        cases hd
  | case2 w c depth w' hd next depth' hc ih =>
      rw [dite_eq_ite] at hd
      obtain ⟨calls, hturn, _⟩ := turn?_arrived_leaf hd
      obtain ⟨more, hclimb⟩ := runs_climb lists (w.stand lists c.focus) depth c
      obtain ⟨rest, hruns⟩ := ih
      rw [hc] at hclimb
      exact ⟨_, .turn hturn (hclimb.trans hruns)⟩
  | case3 w c depth w' hd last hc =>
      rw [dite_eq_ite] at hd
      obtain ⟨calls, hturn, _⟩ := turn?_arrived_leaf hd
      obtain ⟨more, hclimb⟩ := runs_climb lists (w.stand lists c.focus) depth c
      rw [hc] at hclimb
      exact ⟨_, .turn hturn hclimb⟩

/-! ## The loop and the recursive walk -/

/-- A run that brings the given nodes into view, in their order, and finds every parent it calls
for. -/
def Tours (lists : LineLists) (s : Loop) (places : List Cursor) (last : Loop) : Prop :=
  ∃ calls, Runs lists s calls last ∧ calls.filterMap Call.advance? = places ∧
    ∀ target, Call.parent target ∈ calls → target.isSome = true

theorem Tours.trans {lists : LineLists} {s t u : Loop} {a b : List Cursor}
    (h : Tours lists s a t) (h' : Tours lists t b u) : Tours lists s (a ++ b) u := by
  obtain ⟨calls, hruns, rfl, hup⟩ := h
  obtain ⟨more, hmore, rfl, hup'⟩ := h'
  refine ⟨calls ++ more, hruns.trans hmore, List.filterMap_append, fun target hmem => ?_⟩
  rcases List.mem_append.mp hmem with hmem | hmem
  · exact hup target hmem
  · exact hup' target hmem

theorem tours_child {lists : LineLists} {w : Walk} {label : Label} {t : Tree} {ts : List Tree}
    {trail : List Crumb} {depth : Nat}
    (hexp : (Tree.node label (t :: ts)).isExpanded lists = true) :
    Tours lists ⟨.arrived, w, ⟨.node label (t :: ts), trail⟩, depth⟩
      [⟨t, ⟨label, [], ts⟩ :: trail⟩]
      ⟨.arrived, w.stand lists (.node label (t :: ts)), ⟨t, ⟨label, [], ts⟩ :: trail⟩,
        depth + 1⟩ := by
  refine ⟨_, .turn (turn?_arrived_child hexp rfl) (.done _), rfl, fun target hmem => ?_⟩
  rw [List.append_nil, List.mem_singleton] at hmem
  cases hmem

theorem tours_leaf {lists : LineLists} {w : Walk} {c : Cursor} {depth : Nat}
    (h : (if c.focus.isExpanded lists then c.firstChild? else none) = none) :
    Tours lists ⟨.arrived, w, c, depth⟩ [] ⟨.leaving, w.stand lists c.focus, c, depth⟩ := by
  obtain ⟨calls, hturn, hnone, hno⟩ := turn?_arrived_leaf h
  refine ⟨calls ++ [], .turn hturn (.done _), ?_, fun target hmem => ?_⟩
  · rw [List.append_nil, hnone]
  · rw [List.append_nil] at hmem
    exact absurd hmem (hno target)

theorem tours_sibling {lists : LineLists} {w : Walk} {label : Label} {before ts : List Tree}
    {t u : Tree} {trail : List Crumb} {depth : Nat} :
    Tours lists ⟨.leaving, w, ⟨t, ⟨label, before, u :: ts⟩ :: trail⟩, depth + 1⟩
      [⟨u, ⟨label, t :: before, ts⟩ :: trail⟩]
      ⟨.arrived, w, ⟨u, ⟨label, t :: before, ts⟩ :: trail⟩, depth + 1⟩ := by
  refine ⟨_, .turn (turn?_leaving_sibling rfl) (.done _), rfl, fun target hmem => ?_⟩
  rw [List.append_nil, List.mem_singleton] at hmem
  cases hmem

theorem tours_parent {lists : LineLists} {w : Walk} {label : Label} {before : List Tree}
    {t : Tree} {trail : List Crumb} {depth : Nat} :
    Tours lists ⟨.leaving, w, ⟨t, ⟨label, before, []⟩ :: trail⟩, depth + 1⟩ []
      ⟨.leaving, w, ⟨.node label (before.reverse ++ [t]), trail⟩, depth⟩ := by
  refine ⟨_, .turn (turn?_leaving_parent rfl) (.done _), rfl, fun target hmem => ?_⟩
  simp only [List.append_nil, List.mem_cons, List.not_mem_nil, or_false] at hmem
  rcases hmem with hmem | hmem
  · cases hmem
  · cases hmem
    rfl

mutual
/-- Between arriving at a node and leaving it, the loop makes the recursive walk of that node.  The
depth is any: what lies above the node is not looked at. -/
theorem tours_visits (lists : LineLists) (w : Walk) (trail : List Crumb) (depth : Nat) :
    ∀ t : Tree, ∃ places, visits lists trail t = ⟨t, trail⟩ :: places ∧
      Tours lists ⟨.arrived, w, ⟨t, trail⟩, depth⟩ places
        ⟨.leaving, standAll lists w (visits lists trail t), ⟨t, trail⟩, depth⟩
  | .node label [] => by
      rw [visits_leaf]
      refine ⟨[], rfl, tours_leaf ?_⟩
      rw [firstChild?, ite_self]
  | .node label (t :: ts) => by
      by_cases hexp : (Tree.node label (t :: ts)).isExpanded lists = true
      · obtain ⟨places, hplaces, htour⟩ := tours_visits lists
          (w.stand lists (.node label (t :: ts))) (⟨label, [], ts⟩ :: trail) (depth + 1) t
        have hrest := tours_siblings lists
          (standAll lists (w.stand lists (.node label (t :: ts)))
            (visits lists (⟨label, [], ts⟩ :: trail) t)) label [] trail depth t ts
        rw [visits, if_pos hexp, visitsForest, standAll_cons]
        refine ⟨_, rfl, ?_⟩
        rw [← standAll_append] at hrest
        rw [hplaces] at hrest htour ⊢
        exact ((tours_child hexp).trans htour).trans hrest
      · rw [visits, if_neg hexp]
        refine ⟨[], rfl, tours_leaf ?_⟩
        rw [if_neg hexp]

/-- From a child on, the loop walks the siblings after it and then stands ready to leave their
parent. -/
theorem tours_siblings (lists : LineLists) (w : Walk) (label : Label) (before : List Tree)
    (trail : List Crumb) (depth : Nat) (t : Tree) :
    ∀ ts : List Tree,
      Tours lists ⟨.leaving, w, ⟨t, ⟨label, before, ts⟩ :: trail⟩, depth + 1⟩
        (visitsForest lists label (t :: before) trail ts)
        ⟨.leaving, standAll lists w (visitsForest lists label (t :: before) trail ts),
          ⟨.node label (before.reverse ++ t :: ts), trail⟩, depth⟩
  | [] => by
      rw [visitsForest]
      exact tours_parent
  | u :: us => by
      obtain ⟨places, hplaces, htour⟩ :=
        tours_visits lists w (⟨label, t :: before, us⟩ :: trail) (depth + 1) u
      have hrest := tours_siblings lists
        (standAll lists w (visits lists (⟨label, t :: before, us⟩ :: trail) u))
        label (t :: before) trail depth u us
      rw [← standAll_append, List.reverse_cons, List.append_assoc] at hrest
      rw [visitsForest]
      rw [hplaces] at hrest htour ⊢
      exact (tours_sibling.trans htour).trans hrest
end

/-- From its start the loop makes the recursive walk, and then it returns. -/
theorem tours_begin (lists : LineLists) (lines : Rows) (start : Cursor) :
    ∃ places, reached lists start = start :: places ∧
      Tours lists (begin lines start) places
        ⟨.leaving, standAll lists { lines, visited := [] } (reached lists start), start, 0⟩ := by
  rw [← visits_eq_reached]
  exact tours_visits lists { lines, visited := [] } start.trail 0 start.focus

end Loop

/-! ## The walk -/

theorem run_eq_standAll (lists : LineLists) (lines : Rows) (start : Cursor) :
    run lists { lines, visited := [] } start 0 =
      (standAll lists { lines, visited := [] } (reached lists start), start) := by
  obtain ⟨places, _, calls, hruns, _⟩ := Loop.tours_begin lists lines start
  obtain ⟨calls', hruns'⟩ := Loop.runs_run lists { lines, visited := [] } start 0
  have hsame := hruns'.unique (Loop.turn?_leaving_zero lists _ _) hruns
    (Loop.turn?_leaving_zero lists _ _)
  rw [Loop.mk.injEq] at hsame
  exact Prod.ext hsame.2.1 hsame.2.2.1

theorem visited_tree (lists : LineLists) (lines : Rows) (start : Cursor) :
    (tree lists lines start).1.visited = (reached lists start).map (·.focus.label) := by
  rw [tree, run_eq_standAll]
  show (standAll lists _ _).visited.reverse = _
  rw [visited_standAll, List.append_nil, List.reverse_reverse]

theorem mem_lines_tree {lists : LineLists} {lines : Rows} {start : Cursor} {row : Int} :
    row ∈ (tree lists lines start).1.lines ↔
      row ∈ lines ∨ ∃ c ∈ reached lists start,
        (c.focus.kind ≠ "" ∧ c.focus.kind ∉ lists.ignore) ∧
          (row = c.focus.label.startRow ∨ row = c.focus.label.endRow) := by
  rw [tree, run_eq_standAll]
  exact mem_lines_standAll

theorem cursor_tree (lists : LineLists) (lines : Rows) (start : Cursor) :
    (tree lists lines start).2 = start := by
  rw [tree, run_eq_standAll]

/-- The walk from any node of any tree.  Its loop returns; the nodes its cursor is sent to are the
reached ones, each once and in preorder, none of them beside or above the start; every parent it
calls for is there; it marks the first and last rows of the reached nodes that count; and it ends
where it began. -/
theorem tree_stands_on_reached (lists : LineLists) (lines : Rows) (start : Cursor) :
    (∃ calls last, Loop.Runs lists (Loop.begin lines start) calls last ∧
      last.turn? lists = none ∧
      (tree lists lines start).1.lines = last.walk.lines ∧
      (tree lists lines start).2 = last.cursor ∧
      start :: calls.filterMap Call.advance? = reached lists start ∧
      ∀ target, Call.parent target ∈ calls → target.isSome = true) ∧
    (reached lists start).Nodup ∧
    (∀ c ∈ reached lists start, c = start ∨ start.trail.length < c.trail.length) ∧
    (tree lists lines start).1.visited = (reached lists start).map (·.focus.label) ∧
    (∀ row, row ∈ (tree lists lines start).1.lines ↔
      row ∈ lines ∨ ∃ c ∈ reached lists start,
        (c.focus.kind ≠ "" ∧ c.focus.kind ∉ lists.ignore) ∧
          (row = c.focus.label.startRow ∨ row = c.focus.label.endRow)) ∧
    (tree lists lines start).2 = start := by
  have hrun := run_eq_standAll lists lines start
  obtain ⟨places, hplaces, calls, hruns, hcalls, hup⟩ := Loop.tours_begin lists lines start
  refine ⟨⟨calls, _, hruns, Loop.turn?_leaving_zero lists _ _, ?_, ?_, ?_, hup⟩,
    nodup_reached lists start, fun c hc => eq_or_deeper_of_mem_reached hc,
    visited_tree lists lines start, fun row => mem_lines_tree, cursor_tree lists lines start⟩
  · rw [tree, hrun]
  · rw [tree, hrun]
  · rw [hcalls, hplaces]

namespace Sample

def lists : LineLists := { expand := ["block"], ignore := ["block"] }

/-- A block between two lines, with one line inside it. -/
def block : Cursor :=
  { focus := .node ⟨2, " block ", 3, 6⟩ [.node ⟨3, "line", 4, 5⟩ []],
    trail := [⟨⟨0, "block", 0, 9⟩, [.node ⟨1, "line", 1, 2⟩ []], [.node ⟨4, "line", 7, 8⟩ []]⟩] }

def line : Cursor :=
  { focus := .node ⟨3, "line", 4, 5⟩ [],
    trail := ⟨⟨2, " block ", 3, 6⟩, [], []⟩ :: block.trail }

theorem reached_block : reached lists block = [block, line] := by
  have hexp : block.focus.isExpanded lists = true := by decide +kernel
  rw [block] at hexp
  rw [← visits_eq_reached, block, visits, if_pos hexp, visitsForest, visitsForest, visits_leaf]
  rfl

end Sample

/-- From the inner block the walk stands on the line inside it and adds that line's rows. -/
theorem tree_stands_on_line :
    Sample.line ∈ reached Sample.lists Sample.block ∧
      (Sample.line = Sample.block ∨
        Sample.block.trail.length < Sample.line.trail.length) ∧
      5 ∈ (tree Sample.lists [0] Sample.block).1.lines := by
  have h := tree_stands_on_reached Sample.lists [0] Sample.block
  have hmem : Sample.line ∈ reached Sample.lists Sample.block := by
    rw [Sample.reached_block]
    exact List.mem_cons_of_mem _ List.mem_cons_self
  have hrow := (h.2.2.2.2.1 5).mpr (.inr ⟨Sample.line, hmem, by decide, .inr rfl⟩)
  exact ⟨hmem, h.2.2.1 Sample.line hmem, hrow⟩

end Walk
end Polyglot
