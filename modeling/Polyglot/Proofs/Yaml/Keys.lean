/-
No table that is read from a document names a key twice, at any depth.

Tables are filled entry by entry, also where other mappings are merged into them, so the later of
two entries for one key takes the place of the earlier.  `WellKeyed` says what follows for a value
and everything inside it, and `wellKeyed_read` says it of what is read.
-/
import Polyglot.Proofs.Data.Merge
import Polyglot.Proofs.Yaml.Inside
import Polyglot.Yaml.Document

namespace Polyglot

/-- Every table at and inside a value has distinct keys. -/
inductive Value.WellKeyed : Value → Prop where
  | scalar (s : Scalar) : WellKeyed (.scalar s)
  | list {items : List Value} (h : ∀ v ∈ items, WellKeyed v) : WellKeyed (.list items)
  | map {entries : List (Scalar × Value)} (distinct : Table.Distinct entries)
      (h : ∀ e ∈ entries, WellKeyed e.2) : WellKeyed (.map entries)
  | set (items : List Scalar) : WellKeyed (.set items)
  | pair {first second : Value} (h : WellKeyed first) (h' : WellKeyed second) :
      WellKeyed (.pair first second)
  | again (kind : Kind) : WellKeyed (.again kind)

open Value (WellKeyed)

theorem Value.WellKeyed.distinct {d : Section} (h : WellKeyed (.map d)) : Table.Distinct d := by
  cases h with
  | map distinct _ => exact distinct

theorem Value.WellKeyed.of_find? {d : Section} (h : WellKeyed (.map d)) {k : Scalar} {v : Value}
    (hfind : Table.find? d k = some v) : WellKeyed v := by
  obtain ⟨k', -, hmem⟩ := Table.mem_of_find? hfind
  cases h with
  | map _ inner => exact inner _ hmem

theorem Value.wellKeyed_ofList {entries : List (Scalar × Value)}
    (h : ∀ e ∈ entries, WellKeyed e.2) : WellKeyed (.map (Table.ofList entries)) := by
  refine .map (Table.distinct_ofList entries) fun e he => ?_
  rcases Table.mem_update he with ⟨e', he', heq⟩ | he
  · exact heq ▸ h e' he'
  · cases he

namespace Yaml

theorem Built.both_eq_ok {α β : Type} {x : Built α} {y : Built β} {a : α} {b : β}
    (h : Built.both x y = .ok (a, b)) : x = .ok a ∧ y = .ok b := by
  cases x <;> cases y <;> simp_all [Built.both]

theorem Built.mem_of_all_eq_ok {α : Type} {xs : List (Built α)} {as : List α}
    (h : Built.all xs = .ok as) : ∀ a ∈ as, .ok a ∈ xs := by
  induction xs generalizing as with
  | nil =>
      cases h
      exact fun a ha => absurd ha List.not_mem_nil
  | cons x rest ih =>
      rw [Built.all] at h
      cases hboth : Built.both x (Built.all rest) with
      | error e => rw [hboth] at h; cases h
      | ok pair =>
          rw [hboth] at h
          cases h
          obtain ⟨rfl, hrest⟩ := Built.both_eq_ok hboth
          intro a ha
          rcases List.mem_cons.mp ha with rfl | ha
          · exact List.mem_cons_self
          · exact List.mem_cons_of_mem _ (ih hrest a ha)

/-- What comes out well is well keyed. -/
def Built.Keyed (x : Built Value) : Prop := ∀ v, x = .ok v → WellKeyed v

theorem Built.keyed_error (e : Nat × Fault) : Built.Keyed (.error e) := by
  intro v h
  cases h

theorem Built.keyed_of {α : Type} {x : Built α} {f : α → Value}
    (h : ∀ a, x = .ok a → WellKeyed (f a)) : Built.Keyed (x.map f) := by
  intro v hv
  cases x with
  | error e => cases hv
  | ok a =>
      cases hv
      exact h a rfl

theorem Built.keyed_scalar (x : Built Scalar) : Built.Keyed (x.map .scalar) :=
  Built.keyed_of fun s _ => .scalar s

theorem Built.keyed_list {xs : List (Built Value)} (h : ∀ x ∈ xs, Built.Keyed x) :
    Built.Keyed ((Built.all xs).map .list) := by
  refine Built.keyed_of fun items hall => .list fun item hitem => ?_
  exact h _ (Built.mem_of_all_eq_ok hall item hitem) item rfl

theorem Built.keyed_map {entries : List Entry} (h : ∀ e ∈ entries, Built.Keyed e.value) :
    Built.Keyed ((Built.all (entries.map Entry.build)).map fun es => .map (Table.ofList es)) := by
  refine Built.keyed_of fun es hall => Value.wellKeyed_ofList fun e he => ?_
  obtain ⟨entry, hentry, hbuild⟩ := List.mem_map.mp (Built.mem_of_all_eq_ok hall e he)
  exact h entry hentry e.2 (Built.both_eq_ok hbuild).2

theorem Built.keyed_set {entries : List Entry} :
    Built.Keyed ((Built.all (entries.map Entry.build)).map fun es =>
      .set (Table.keys (Table.ofList es))) :=
  Built.keyed_of fun _ _ => .set _

theorem Built.keyed_pair {x y : Built Value} (hx : Built.Keyed x) (hy : Built.Keyed y) :
    Built.Keyed ((Built.both x y).map fun (a, b) => .pair a b) := by
  refine Built.keyed_of fun pair hboth => ?_
  obtain ⟨ha, hb⟩ := Built.both_eq_ok hboth
  exact .pair (hx _ ha) (hy _ hb)

namespace Node

theorem keyed_toPair {level : Nat} {n : Node}
    (h : ∀ m : Node, m.Inside n → Built.Keyed (m.toValue level)) :
    Built.Keyed (toPair level n) := by
  rw [toPair.eq_def]
  split
  · exact Built.keyed_pair (h _ ⟨_, List.mem_cons_self, .inl .self⟩)
      (h _ ⟨_, List.mem_cons_self, .inr .self⟩)
  · exact Built.keyed_error _

theorem keyed_toPairs {level : Nat} {items : List Node}
    (h : ∀ n ∈ items, ∀ m : Node, m.Within n → Built.Keyed (m.toValue level)) :
    ∀ x ∈ toPairs level items, Built.Keyed x := by
  intro x hx
  rw [toPairs_eq_map] at hx
  obtain ⟨n, hn, rfl⟩ := List.mem_map.mp hx
  exact keyed_toPair fun m hm => h n hn m hm.within

theorem keyed_toValue (level : Nat) (n : Node) : Built.Keyed (n.toValue level) := by
  induction n using induction_inside generalizing level with
  | h n ih =>
      rw [toValue.eq_def]
      cases n with
      | again isMapping =>
          intro v hv
          cases hv
          exact .again _
      | scalar tag text =>
          simp only
          split
          · exact Built.keyed_error _
          · exact Built.keyed_error _
          · exact Built.keyed_error _
          · exact Built.keyed_error _
          · exact Built.keyed_error _
          · exact Built.keyed_scalar _
      | sequence tag items =>
          have hpairs : ∀ x ∈ toPairs (level + 1) items, Built.Keyed x :=
            keyed_toPairs fun n hn m hm => ih m ⟨n, hn, hm⟩ (level + 1)
          simp only
          split
          · refine Built.keyed_list fun x hx => ?_
            rw [toValues_eq_map] at hx
            obtain ⟨n, hn, rfl⟩ := List.mem_map.mp hx
            exact ih n ⟨n, hn, .self⟩ (level + 1)
          · exact Built.keyed_list hpairs
          · exact Built.keyed_list hpairs
          · exact Built.keyed_error _
          · exact Built.keyed_error _
          · exact Built.keyed_error _
      | mapping tag entries =>
          simp only
          split
          · split
            · exact Built.keyed_error _
            · rename_i merged own h
              refine Built.keyed_map fun e he => ?_
              obtain ⟨k, v, -, hv, rfl⟩ := feeds_toEntries (level + 1) .map entries merged own h e he
              exact ih v hv (level + 1)
          · split
            · exact Built.keyed_error _
            · exact Built.keyed_set
          · exact Built.keyed_error _
          · exact Built.keyed_error _
          · exact Built.keyed_error _
          · exact Built.keyed_scalar _

end Node

theorem wellKeyed_read {text : String} {v : Value} (h : read text = .ok v) : WellKeyed v := by
  rw [read] at h
  simp only at h
  split at h
  · split at h
    · cases h
    · cases h
    · cases h
      exact .scalar _
    · rename_i node _
      split at h
      · rename_i built hbuilt
        cases h
        exact Node.keyed_toValue 0 node _ hbuilt
      · cases h
  · cases h

end Yaml
end Polyglot
