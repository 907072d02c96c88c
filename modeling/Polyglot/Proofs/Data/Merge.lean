/-
Merged tables, key by key.

`Value.merge` writes one table over another and goes into tables that both hold under one key.  What
stands under a key afterwards is `find?_merge`, and the order of the keys is `keys_merge`: those of
the base, then the new ones.  Both ask that the table written over the base names no key twice.
-/
import Polyglot.Data.Value
import Polyglot.Proofs.Table

namespace Polyglot

theorem Scalar.beq_iff {a b : Scalar} : (a == b) = true ↔ a.key = b.key :=
  beq_iff_eq (a := a.key) (b := b.key)

instance : EquivBEq Scalar where
  rfl := Scalar.beq_iff.mpr rfl
  symm h := Scalar.beq_iff.mpr (Scalar.beq_iff.mp h).symm
  trans h h' := Scalar.beq_iff.mpr ((Scalar.beq_iff.mp h).trans (Scalar.beq_iff.mp h'))

namespace Value

open Table

theorem override_none (v : Value) : override none v = v := by
  cases v <;> rfl

theorem distinct_merge {base : Section} (h : Distinct base) (upper : Section) :
    Distinct (merge base upper) := by
  induction upper generalizing base with
  | nil =>
      rw [merge]
      exact h
  | cons e rest ih =>
      rw [merge]
      exact ih (distinct_insert h e.1 _)

/-- A key of the upper table takes its value over what stood there; the others keep theirs. -/
theorem find?_merge (base : Section) {upper : Section} (h : Distinct upper) (k : Scalar) :
    find? (merge base upper) k =
      match find? upper k with
      | some v => some (override (find? base k) v)
      | none => find? base k := by
  induction upper generalizing base with
  | nil =>
      rw [merge]
      rfl
  | cons e rest ih =>
      obtain ⟨key, value⟩ := e
      have hhead : ∀ k' ∈ keys rest, (key == k') = false :=
        fun _ hk' => List.rel_of_pairwise_cons h hk'
      rw [merge, ih _ (List.Pairwise.of_cons h), find?_insert, find?_cons]
      by_cases hk : (k == key) = true
      · have hnone : find? rest k = none := by
          rw [find?_congr hk, find?_eq_none_iff]
          exact hhead
        rw [hnone, if_pos hk, if_pos hk, find?_congr hk]
      · rw [if_neg hk, if_neg hk]

/-- A table with distinct keys is merged by writing it over the other one, each value over the one
that it meets there. -/
theorem merge_eq_update (base : Section) {upper : Section} (h : Distinct upper) :
    merge base upper = update base (upper.map fun e => (e.1, override (find? base e.1) e.2)) := by
  induction upper generalizing base with
  | nil =>
      rw [merge]
      rfl
  | cons e rest ih =>
      obtain ⟨key, value⟩ := e
      rw [merge, ih _ (List.Pairwise.of_cons h)]
      refine congrArg (update (insert base key (override (find? base key) value)))
        (List.map_congr_left fun e he => ?_)
      have hne : (key == e.1) = false := List.rel_of_pairwise_cons h (List.mem_map_of_mem he)
      rw [find?_insert, BEq.comm, hne, if_neg Bool.false_ne_true]

theorem keys_merge (base : Section) {upper : Section} (h : Distinct upper) :
    keys (merge base upper) = keys base ++ (keys upper).filter fun k => !contains base k := by
  have hkeys : keys (upper.map fun e => (e.1, override (find? base e.1) e.2)) = keys upper := by
    rw [keys, List.map_map]
    rfl
  have hdistinct : Distinct (upper.map fun e => (e.1, override (find? base e.1) e.2)) := by
    rw [Distinct, hkeys]
    exact h
  rw [merge_eq_update base h, keys_update base hdistinct, hkeys]

/-- Over a table that has none of its keys, a table is put at the end as it is. -/
theorem merge_eq_append {base upper : Section} (h : Distinct upper)
    (hnew : ∀ k ∈ keys upper, contains base k = false) :
    merge base upper = List.append base upper := by
  have hsame : (upper.map fun e => (e.1, override (find? base e.1) e.2)) = upper := by
    refine (List.map_congr_left fun e he => ?_).trans (List.map_id upper)
    rw [contains_eq_false_iff.mp (hnew e.1 (List.mem_map_of_mem he)), override_none]
    rfl
  rw [merge_eq_update base h, hsame, update_eq_append h hnew]

theorem merge_nil {upper : Section} (h : Distinct upper) : merge [] upper = upper :=
  merge_eq_append h fun _ _ => rfl

end Value
end Polyglot
