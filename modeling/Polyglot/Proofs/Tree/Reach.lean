/-
The nodes that a walk is to stand on.

`Cursor.reached lists start` says it without a walk: of the nodes at and below `start`, in preorder,
those whose ancestors, from the start down to the parent, all have an expanded kind.
`Cursor.visits` says it by recursion on the tree, and the theorem this file exists for is that the
two agree, `visits_eq_reached`.
-/
import Polyglot.Tree.Walk

namespace Polyglot

/-- Whether the node that a crumb stands for is expanded. -/
def Crumb.isExpanded (lists : LineLists) (crumb : Crumb) : Bool :=
  lists.expand.contains (Text.strip crumb.label.kind)

namespace Cursor

/-- The ancestors of a node that lie more than `level` steps below the root, nearest first. -/
def wayFrom (level : Nat) (c : Cursor) : List Crumb := c.trail.take (c.trail.length - level)

def isReached (lists : LineLists) (level : Nat) (c : Cursor) : Bool :=
  (c.wayFrom level).all (Crumb.isExpanded lists)

/-- The nodes of the subtree at `start`, in preorder, below expanded ancestors only. -/
def reached (lists : LineLists) (start : Cursor) : List Cursor :=
  (below start.trail start.focus).filter (isReached lists start.trail.length)

mutual
/-- The recursive walk: a node, and the walks of its children if it is expanded. -/
def visits (lists : LineLists) (trail : List Crumb) : Tree → List Cursor
  | .node label children =>
      { focus := .node label children, trail } ::
        if (Tree.node label children).isExpanded lists then
          visitsForest lists label [] trail children
        else []
def visitsForest (lists : LineLists) (label : Label) (before : List Tree) (trail : List Crumb) :
    List Tree → List Cursor
  | [] => []
  | t :: ts =>
      visits lists ({ label, before, after := ts } :: trail) t ++
        visitsForest lists label (t :: before) trail ts
end

theorem visits_leaf (lists : LineLists) (trail : List Crumb) (label : Label) :
    visits lists trail (.node label []) = [⟨.node label [], trail⟩] := by
  rw [visits, visitsForest, ite_self]

/-! ## Places of one tree

A cursor carries its whole way up, so two nodes of one tree are never the same cursor, even where
their subtrees are equal. -/

mutual
theorem suffix_of_mem_below {trail : List Crumb} {c : Cursor} :
    ∀ t : Tree, c ∈ below trail t → trail <:+ c.trail
  | .node label children => by
      intro h
      rw [below, List.mem_cons] at h
      rcases h with rfl | h
      · exact List.suffix_refl trail
      · obtain ⟨crumb, _, _, hs⟩ := crumb_of_mem_belowForest children h
        exact (List.suffix_cons crumb trail).trans hs
/-- A node among the children of another lies below a crumb of that node, which has at least the
given siblings before it. -/
theorem crumb_of_mem_belowForest {label : Label} {before : List Tree} {trail : List Crumb}
    {c : Cursor} :
    ∀ ts : List Tree, c ∈ belowForest label before trail ts →
      ∃ crumb : Crumb, crumb.label = label ∧ before.length ≤ crumb.before.length ∧
        crumb :: trail <:+ c.trail
  | [] => by
      intro h
      rw [belowForest] at h
      exact absurd h List.not_mem_nil
  | t :: ts => by
      intro h
      rw [belowForest, List.mem_append] at h
      rcases h with h | h
      · exact ⟨_, rfl, Nat.le_refl _, suffix_of_mem_below t h⟩
      · obtain ⟨crumb, hl, hb, hs⟩ := crumb_of_mem_belowForest ts h
        rw [List.length_cons] at hb
        exact ⟨crumb, hl, by omega, hs⟩
end

theorem length_trail_of_mem_belowForest {label : Label} {before : List Tree} {trail : List Crumb}
    {ts : List Tree} {c : Cursor} (h : c ∈ belowForest label before trail ts) :
    trail.length < c.trail.length := by
  obtain ⟨crumb, _, _, hs⟩ := crumb_of_mem_belowForest ts h
  have hl := hs.length_le
  rw [List.length_cons] at hl
  omega

mutual
theorem nodup_below (trail : List Crumb) : ∀ t : Tree, (below trail t).Nodup
  | .node label children => by
      rw [below, List.nodup_cons]
      refine ⟨fun h => ?_, nodup_belowForest label [] trail children⟩
      exact Nat.lt_irrefl _ (length_trail_of_mem_belowForest h)
theorem nodup_belowForest (label : Label) (before : List Tree) (trail : List Crumb) :
    ∀ ts : List Tree, (belowForest label before trail ts).Nodup
  | [] => by rw [belowForest]; exact List.nodup_nil
  | t :: ts => by
      rw [belowForest, List.nodup_append]
      refine ⟨nodup_below _ t, nodup_belowForest label (t :: before) trail ts, ?_⟩
      -- The crumbs of two siblings differ in the number of siblings before them.
      rintro a ha b hb rfl
      have hs := suffix_of_mem_below t ha
      obtain ⟨crumb, _, hlen, hs'⟩ := crumb_of_mem_belowForest ts hb
      have heq := List.suffix_of_suffix_length_le hs hs' (by simp)
      have heq := heq.eq_of_length (by simp)
      rw [List.cons.injEq] at heq
      rw [← heq.1, List.length_cons] at hlen
      exact absurd hlen (by simp)
end

theorem nodup_reached (lists : LineLists) (start : Cursor) : (reached lists start).Nodup :=
  (nodup_below start.trail start.focus).filter _

/-- On the level of the start, or above it, only the start itself is reached. -/
theorem eq_or_deeper_of_mem_reached {lists : LineLists} {start c : Cursor}
    (h : c ∈ reached lists start) : c = start ∨ start.trail.length < c.trail.length := by
  obtain ⟨⟨label, children⟩, trail⟩ := start
  have hb := (List.mem_filter.mp h).1
  rw [below, List.mem_cons] at hb
  rcases hb with rfl | hb
  · exact .inl rfl
  · exact .inr (length_trail_of_mem_belowForest hb)

/-! ## The recursive walk reaches what is to be reached -/

theorem wayFrom_cons {level : Nat} {crumb : Crumb} {trail : List Crumb} (t u : Tree)
    (h : level ≤ trail.length) :
    wayFrom level ⟨t, crumb :: trail⟩ = crumb :: wayFrom level ⟨u, trail⟩ := by
  simp only [wayFrom, List.length_cons, Nat.succ_sub h, List.take_succ_cons]

/-- The way to a node goes through every crumb that its trail ends with. -/
theorem mem_wayFrom_of_suffix {level : Nat} {crumb : Crumb} {trail : List Crumb} {c : Cursor}
    (h : level ≤ trail.length) (hs : crumb :: trail <:+ c.trail) : crumb ∈ c.wayFrom level := by
  obtain ⟨front, hf⟩ := hs
  have hlen : c.trail.length - level = front.length + ((trail.length - level) + 1) := by
    rw [← hf, List.length_append, List.length_cons]
    omega
  rw [wayFrom, hlen, ← hf, List.take_append, List.mem_append]
  refine .inr ?_
  rw [Nat.add_sub_cancel_left, List.take_succ_cons]
  exact List.mem_cons_self

/-- Below a node that is not expanded nothing is reached. -/
theorem filter_belowForest_eq_nil {lists : LineLists} {level : Nat} {label : Label}
    {before : List Tree} {trail : List Crumb} (hle : level ≤ trail.length)
    (hno : lists.expand.contains (Text.strip label.kind) = false) (ts : List Tree) :
    (belowForest label before trail ts).filter (isReached lists level) = [] := by
  rw [List.filter_eq_nil_iff]
  intro c hc hall
  obtain ⟨crumb, hl, _, hs⟩ := crumb_of_mem_belowForest ts hc
  have hexp := List.all_eq_true.mp hall crumb (mem_wayFrom_of_suffix hle hs)
  rw [Crumb.isExpanded, hl, hno] at hexp
  exact Bool.noConfusion hexp

mutual
theorem filter_below {lists : LineLists} {level : Nat} {trail : List Crumb}
    (hle : level ≤ trail.length) :
    ∀ t : Tree, isReached lists level ⟨t, trail⟩ = true →
      (below trail t).filter (isReached lists level) = visits lists trail t
  | .node label children => by
      intro hway
      rw [below, visits, List.filter_cons_of_pos hway]
      congr 1
      by_cases hexp : (Tree.node label children).isExpanded lists = true
      · rw [if_pos hexp]
        exact filter_belowForest hle hexp children hway
      · rw [if_neg hexp]
        exact filter_belowForest_eq_nil hle (Bool.eq_false_iff.mpr hexp) children
theorem filter_belowForest {lists : LineLists} {level : Nat} {label : Label} {before : List Tree}
    {trail : List Crumb} {parent : Tree} (hle : level ≤ trail.length)
    (hexp : lists.expand.contains (Text.strip label.kind) = true) :
    ∀ ts : List Tree, isReached lists level ⟨parent, trail⟩ = true →
      (belowForest label before trail ts).filter (isReached lists level) =
        visitsForest lists label before trail ts
  | [] => by
      intro _
      rw [belowForest, visitsForest, List.filter_nil]
  | t :: ts => by
      intro hway
      have hway' : isReached lists level ⟨t, { label, before, after := ts } :: trail⟩ = true := by
        rw [isReached, wayFrom_cons t parent hle, List.all_cons, Bool.and_eq_true]
        exact ⟨hexp, hway⟩
      have hle' : level ≤ ({ label, before, after := ts } :: trail : List Crumb).length := by
        rw [List.length_cons]
        omega
      rw [belowForest, visitsForest, List.filter_append, filter_below hle' t hway',
        filter_belowForest hle hexp ts hway]
end

/-- The recursive walk stands on the reached nodes, in their order. -/
theorem visits_eq_reached (lists : LineLists) (start : Cursor) :
    visits lists start.trail start.focus = reached lists start := by
  refine (filter_below (Nat.le_refl _) start.focus ?_).symm
  rw [isReached, wayFrom, Nat.sub_self, List.take_zero, List.all_nil]

end Cursor
end Polyglot
