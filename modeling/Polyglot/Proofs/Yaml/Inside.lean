/-
Nodes inside nodes, and which of them a value is made of.

The values of a collection are those of nodes inside it, also where other mappings are merged into
it (`feeds_toEntries`).  What holds of a value if it holds of those inside it holds of all
(`induction_inside`).
-/
import Polyglot.Yaml.Value

namespace Polyglot
namespace Yaml
namespace Node

/-- A node is another, or lies inside it. -/
inductive Within (m : Node) : Node → Prop where
  | self : Within m m
  | item {t : Tag} {items : List Node} {n : Node} (h : n ∈ items) (hm : Within m n) :
      Within m (.sequence t items)
  | key {t : Tag} {entries : List (Node × Node)} {e : Node × Node} (h : e ∈ entries)
      (hm : Within m e.1) : Within m (.mapping t entries)
  | value {t : Tag} {entries : List (Node × Node)} {e : Node × Node} (h : e ∈ entries)
      (hm : Within m e.2) : Within m (.mapping t entries)

/-- A node is a part of another, not the other itself. -/
def Inside (m : Node) : Node → Prop
  | .sequence _ items => ∃ n ∈ items, m.Within n
  | .mapping _ entries => ∃ e ∈ entries, m.Within e.1 ∨ m.Within e.2
  | _ => False

theorem Inside.within {m n : Node} (h : m.Inside n) : m.Within n := by
  cases n with
  | scalar | again => exact h.elim
  | sequence tag items =>
      obtain ⟨n, hn, hm⟩ := h
      exact .item hn hm
  | mapping tag entries =>
      obtain ⟨e, he, hk | hv⟩ := h
      · exact .key he hk
      · exact .value he hv

theorem Within.trans {l m n : Node} (h : l.Within m) (h' : m.Within n) : l.Within n := by
  induction h' with
  | self => exact h
  | item hn _ ih => exact .item hn ih
  | key he _ ih => exact .key he ih
  | value he _ ih => exact .value he ih

theorem Within.sizeOf_le {m n : Node} (h : m.Within n) : sizeOf m ≤ sizeOf n := by
  induction h with
  | self => exact Nat.le_refl _
  | item hn _ ih =>
      have := List.sizeOf_lt_of_mem hn
      simp only [sequence.sizeOf_spec]
      omega
  | @key t entries e he _ ih =>
      have := List.sizeOf_lt_of_mem he
      obtain ⟨k, v⟩ := e
      simp only [mapping.sizeOf_spec, Prod.mk.sizeOf_spec] at *
      omega
  | @value t entries e he _ ih =>
      have := List.sizeOf_lt_of_mem he
      obtain ⟨k, v⟩ := e
      simp only [mapping.sizeOf_spec, Prod.mk.sizeOf_spec] at *
      omega

theorem Inside.sizeOf_lt {m n : Node} (h : m.Inside n) : sizeOf m < sizeOf n := by
  cases n with
  | scalar | again => exact h.elim
  | sequence tag items =>
      obtain ⟨n, hn, hm⟩ := h
      have := List.sizeOf_lt_of_mem hn
      have := hm.sizeOf_le
      simp only [sequence.sizeOf_spec]
      omega
  | mapping tag entries =>
      obtain ⟨⟨k, v⟩, he, hm⟩ := h
      have := List.sizeOf_lt_of_mem he
      have : sizeOf m ≤ sizeOf k ∨ sizeOf m ≤ sizeOf v :=
        hm.imp Within.sizeOf_le Within.sizeOf_le
      simp only [mapping.sizeOf_spec, Prod.mk.sizeOf_spec] at *
      omega

/-- What holds of a node if it holds of all nodes inside it holds of every node. -/
theorem induction_inside {P : Node → Prop} (h : ∀ n, (∀ m, m.Inside n → P m) → P n) (n : Node) :
    P n := by
  induction hsize : sizeOf n using Nat.strongRecOn generalizing n with
  | ind size ih => exact h n fun m hm => ih (sizeOf m) (hsize ▸ hm.sizeOf_lt) m rfl

/-! ## What values are made of -/

theorem toValues_eq_map (level : Nat) (items : List Node) :
    toValues level items = items.map (toValue level) := by
  induction items with
  | nil => rw [toValues, List.map_nil]
  | cons n rest ih => rw [toValues, ih, List.map_cons]

theorem toPairs_eq_map (level : Nat) (items : List Node) :
    toPairs level items = items.map (toPair level) := by
  induction items with
  | nil => rw [toPairs, List.map_nil]
  | cons n rest ih => rw [toPairs, ih, List.map_cons]

/-- The entry is made of two nodes inside the given one. -/
def Feeds (level : Nat) (n : Node) (e : Entry) : Prop :=
  ∃ k v, k.Inside n ∧ v.Inside n ∧ e = { key := toKey level k, value := toValue level v }

theorem Feeds.of_inside {level : Nat} {m n : Node} {e : Entry}
    (h : ∀ l : Node, l.Inside m → l.Inside n) (he : m.Feeds level e) : n.Feeds level e := by
  obtain ⟨k, v, hk, hv, rfl⟩ := he
  exact ⟨k, v, h k hk, h v hv, rfl⟩

theorem inside_tail {m : Node} {t : Tag} {e : Node × Node} {rest : List (Node × Node)}
    (h : m.Inside (mapping t rest)) : m.Inside (mapping t (e :: rest)) := by
  obtain ⟨e', he', hm⟩ := h
  exact ⟨e', List.mem_cons_of_mem e he', hm⟩

mutual
theorem feeds_toEntries (level : Nat) (t : Tag) :
    ∀ (entries : List (Node × Node)) (merged own : List Entry),
      toEntries level entries = some (merged, own) →
        ∀ e ∈ merged ++ own, (mapping t entries).Feeds level e
  | [] => by
      intro merged own h e he
      rw [toEntries] at h
      cases h
      cases he
  | (k, v) :: rest => by
      intro merged own h e he
      have hself : (k, v) ∈ (k, v) :: rest := List.mem_cons_self
      rw [toEntries] at h
      cases hrest : toEntries level rest with
      | none =>
          rw [hrest] at h
          by_cases hm : k.isMerge = true
          · rw [if_pos hm] at h
            cases hfrom : toMerged level v <;> rw [hfrom] at h <;> cases h
          · rw [if_neg hm] at h
            cases h
      | some found =>
          obtain ⟨merged', own'⟩ := found
          have ih (e : Entry) (he : e ∈ merged' ++ own') :
              (mapping t ((k, v) :: rest)).Feeds level e :=
            (feeds_toEntries level t rest merged' own' hrest e he).of_inside fun l => inside_tail
          rw [hrest] at h
          by_cases hm : k.isMerge = true
          · rw [if_pos hm] at h
            cases hfrom : toMerged level v with
            | none => rw [hfrom] at h; cases h
            | some entries =>
                rw [hfrom] at h
                cases h
                rw [List.append_assoc, List.mem_append] at he
                rcases he with he | he
                · exact (feeds_toMerged level v entries hfrom e he).of_inside fun l hl =>
                    ⟨(k, v), hself, .inr hl.within⟩
                · exact ih e he
          · rw [if_neg hm] at h
            cases h
            rw [List.mem_append, List.mem_cons] at he
            rcases he with he | rfl | he
            · exact ih e (List.mem_append_left _ he)
            · exact ⟨k, v, ⟨(k, v), hself, .inl .self⟩, ⟨(k, v), hself, .inr .self⟩, rfl⟩
            · exact ih e (List.mem_append_right _ he)
theorem feeds_toMerged (level : Nat) :
    ∀ (n : Node) (entries : List Entry), toMerged level n = some entries →
      ∀ e ∈ entries, n.Feeds level e
  | mapping t entries => by
      intro found h
      rw [toMerged] at h
      cases hentries : toEntries level entries with
      | none => rw [hentries] at h; cases h
      | some parts =>
          rw [hentries] at h
          cases h
          exact feeds_toEntries level t entries parts.1 parts.2 hentries
  | sequence t items => by
      intro found h
      rw [toMerged] at h
      exact feeds_toMergedAll level t items found h
  | scalar _ _ => by
      intro found h
      rw [toMerged] at h
      · cases h
      · exact fun _ _ => Node.noConfusion
      · exact fun _ _ => Node.noConfusion
  | again _ => by
      intro found h
      rw [toMerged] at h
      · cases h
      · exact fun _ _ => Node.noConfusion
      · exact fun _ _ => Node.noConfusion
theorem feeds_toMergedAll (level : Nat) (t : Tag) :
    ∀ (items : List Node) (entries : List Entry), toMergedAll level items = some entries →
      ∀ e ∈ entries, (sequence t items).Feeds level e
  | [] => by
      intro found h e he
      rw [toMergedAll] at h
      cases h
      cases he
  | mapping t' entries :: rest => by
      intro found h e he
      rw [toMergedAll] at h
      cases hentries : toEntries level entries with
      | none => rw [hentries] at h; cases h
      | some parts =>
          cases hrest : toMergedAll level rest with
          | none => rw [hentries, hrest] at h; cases h
          | some later =>
              rw [hentries, hrest] at h
              cases h
              rcases List.mem_append.mp he with he | he
              · refine (feeds_toMergedAll level t rest later hrest e he).of_inside ?_
                rintro l ⟨n, hn, hl⟩
                exact ⟨n, List.mem_cons_of_mem _ hn, hl⟩
              · refine (feeds_toEntries level t' entries parts.1 parts.2 hentries e he).of_inside ?_
                exact fun l hl => ⟨mapping t' entries, List.mem_cons_self, hl.within⟩
  | scalar _ _ :: rest => by
      intro found h
      cases h
  | sequence _ _ :: rest => by
      intro found h
      cases h
  | again _ :: rest => by
      intro found h
      cases h
end

end Node
end Yaml
end Polyglot
