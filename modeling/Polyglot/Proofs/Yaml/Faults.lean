/-
Why a document that is not malformed cannot be read.

A text can ask for a character that does not exist, the number of its version can be too long, and a
scalar may not convert to what its tag or its form promises.  `fault_read` says that there is nothing
else.
-/
import Polyglot.Proofs.Yaml.Inside
import Polyglot.Proofs.Yaml.Readers
import Polyglot.Yaml.Document

namespace Polyglot
namespace Yaml

namespace Built

variable {α β : Type} {P Q : Fault → Prop}

/-- What fails is malformed, or fails as `P` says. -/
def Blames (P : Fault → Prop) (x : Built α) : Prop :=
  ∀ e, x = .error e → e.2 = .malformed ∨ P e.2

theorem blames_malformed (level : Nat) : Blames P (.error (level, .malformed) : Built α) := by
  intro e h
  cases h
  exact .inl rfl

theorem Blames.imp {x : Built α} (hx : Blames P x) (h : ∀ f, P f → Q f) : Blames Q x :=
  fun e he => (hx e he).imp id (h e.2)

theorem Blames.map {x : Built α} (hx : Blames P x) (g : α → β) : Blames P (x.map g) := by
  intro e he
  cases x with
  | error _ =>
      cases he
      exact hx e rfl
  | ok a => cases he

theorem Blames.both {x : Built α} {y : Built β} (hx : Blames P x) (hy : Blames P y) :
    Blames P (Built.both x y) := by
  intro e he
  cases x with
  | error ex =>
      cases y with
      | error ey =>
          cases he
          split
          · exact hy ey rfl
          · exact hx ex rfl
      | ok b =>
          cases he
          exact hx e rfl
  | ok a =>
      cases y with
      | error _ =>
          cases he
          exact hy e rfl
      | ok b => cases he

theorem blames_all {xs : List (Built α)} (h : ∀ x ∈ xs, Blames P x) : Blames P (Built.all xs) := by
  induction xs with
  | nil =>
      intro e he
      cases he
  | cons x rest ih =>
      obtain ⟨hx, hrest⟩ := List.forall_mem_cons.mp h
      exact (hx.both (ih hrest)).map _

end Built

namespace Node

open Built (Blames)

/-- Somewhere in a node, a text does not convert as a tag says. -/
def Misfits (n : Node) (f : Fault) : Prop :=
  ∃ (m : Node) (tag : Tag) (text : String), m.Within n ∧ m.tag? = some tag ∧ m.text? = some text ∧
    m.asScalar tag text = .error f

theorem Misfits.of_within {m n : Node} {f : Fault} (h : m.Misfits f) (hmn : m.Within n) :
    n.Misfits f := by
  obtain ⟨l, tag, text, hl, hrest⟩ := h
  exact ⟨l, tag, text, hl.trans hmn, hrest⟩

theorem blames_toScalarAt (level : Nat) (tag : Tag) (n : Node) :
    Blames (fun f => ∃ text, n.text? = some text ∧ n.asScalar tag text = .error f)
      (toScalarAt level tag n) := by
  intro e he
  rw [toScalarAt] at he
  cases htext : n.text? with
  | none =>
      rw [htext] at he
      cases he
      exact .inl rfl
  | some text =>
      rw [htext] at he
      simp only at he
      split at he
      · cases he
      · rename_i fault hfault
        cases he
        exact .inr ⟨text, rfl, hfault⟩

theorem blames_own {level : Nat} {tag : Tag} {n : Node} (h : n.tag? = some tag) :
    Blames n.Misfits (toScalarAt level tag n) := by
  refine (blames_toScalarAt level tag n).imp ?_
  rintro f ⟨text, htext, hfault⟩
  exact ⟨n, tag, text, .self, h, htext, hfault⟩

theorem blames_toKey (level : Nat) (n : Node) : Blames n.Misfits (toKey level n) := by
  rw [toKey.eq_def]
  split
  · -- the default sign is read as a text, and a text always converts
    refine (blames_toScalarAt level .str n).imp ?_
    rintro f ⟨text, -, hfault⟩
    cases hfault
  · rename_i htag
    exact blames_own htag
  · exact Built.blames_malformed level

theorem blames_toPair {level : Nat} {n : Node}
    (h : ∀ m : Node, m.Inside n → Blames m.Misfits (m.toValue level)) :
    Blames n.Misfits (toPair level n) := by
  have hpart (m : Node) (hm : m.Inside n) : Blames n.Misfits (m.toValue level) :=
    (h m hm).imp fun f hf => hf.of_within hm.within
  rw [toPair.eq_def]
  split
  · exact ((hpart _ ⟨_, List.mem_cons_self, .inl .self⟩).both
      (hpart _ ⟨_, List.mem_cons_self, .inr .self⟩)).map _
  · exact Built.blames_malformed level

theorem blames_entries {level : Nat} {n : Node} {entries : List Entry}
    (h : ∀ m : Node, m.Inside n → Blames m.Misfits (m.toValue level))
    (hfeeds : ∀ e ∈ entries, n.Feeds level e) :
    Blames n.Misfits (Built.all (entries.map Entry.build)) := by
  refine Built.blames_all fun x hx => ?_
  obtain ⟨e, he, rfl⟩ := List.mem_map.mp hx
  obtain ⟨k, v, hk, hv, rfl⟩ := hfeeds e he
  exact ((blames_toKey level k).imp fun f hf => hf.of_within hk.within).both
    ((h v hv).imp fun f hf => hf.of_within hv.within)

theorem blames_toValue (level : Nat) (n : Node) : Blames n.Misfits (n.toValue level) := by
  induction n using induction_inside generalizing level with
  | h n ih =>
      have hmalformed (level : Nat) : Blames n.Misfits (.error (level, .malformed) : Built Value) :=
        Built.blames_malformed level
      rw [toValue.eq_def]
      cases n with
      | again isMapping =>
          intro e he
          cases he
      | scalar tag text =>
          simp only
          split
          · exact hmalformed _
          · exact hmalformed _
          · exact hmalformed _
          · exact hmalformed _
          · exact hmalformed _
          · exact (blames_own rfl).map _
      | sequence tag items =>
          have hvalues : Blames (sequence tag items).Misfits
              (Built.all (toValues (level + 1) items)) := by
            rw [toValues_eq_map]
            refine Built.blames_all fun x hx => ?_
            obtain ⟨n, hn, rfl⟩ := List.mem_map.mp hx
            exact (ih n ⟨n, hn, .self⟩ (level + 1)).imp fun f hf => hf.of_within (.item hn .self)
          have hpairs : Blames (sequence tag items).Misfits
              (Built.all (toPairs (level + 1) items)) := by
            rw [toPairs_eq_map]
            refine Built.blames_all fun x hx => ?_
            obtain ⟨n, hn, rfl⟩ := List.mem_map.mp hx
            refine (blames_toPair fun m hm => ?_).imp fun f hf => hf.of_within (.item hn .self)
            exact ih m ⟨n, hn, hm.within⟩ (level + 1)
          simp only
          split
          · exact hvalues.map _
          · exact hpairs.map _
          · exact hpairs.map _
          · exact hmalformed _
          · exact hmalformed _
          · exact hmalformed _
      | mapping tag entries =>
          have hentries (merged own : List Entry)
              (h : toEntries (level + 1) entries = some (merged, own)) :
              Blames (mapping tag entries).Misfits
                (Built.all ((merged ++ own).map Entry.build)) :=
            blames_entries (fun m hm => ih m hm (level + 1))
              (feeds_toEntries (level + 1) tag entries merged own h)
          simp only
          split
          · split
            · exact hmalformed _
            · exact (hentries _ _ (by assumption)).map _
          · split
            · exact hmalformed _
            · exact (hentries _ _ (by assumption)).map _
          · exact hmalformed _
          · exact hmalformed _
          · exact hmalformed _
          · exact (blames_own rfl).map _

end Node

/-- What keeps a text from being read although it is not malformed: the number of its version has too
many digits, an escape asks for a character that does not exist, or a scalar of its document does not
convert. -/
inductive Flawed (text : String) (f : Fault) : Prop where
  | version (h : Property.Overcounts (unifyBreaks text.toList) f)
  | character (h : Quoted.Overreaches (unifyBreaks text.toList) f)
  | scalar {n : Node} (hnode : Node.ofTokens (Token.scan (unifyBreaks text.toList)).1 = .ok (some n))
      (h : n.Misfits f)

theorem fault_read {text : String} {f : Fault} (h : read text = .error f) :
    f = .malformed ∨ Flawed text f := by
  rw [read] at h
  simp only at h
  split at h
  · split at h
    · cases h
      exact .inl rfl
    · cases hfault : (Token.scan (unifyBreaks text.toList)).2 with
      | none =>
          rw [hfault] at h
          cases h
          exact .inl rfl
      | some fault =>
          rw [hfault] at h
          cases h
          exact (fault_scan hfault).imp id fun h => h.elim .version .character
    · cases h
    · rename_i node hnode
      split at h
      · cases h
      · rename_i level fault hbuilt
        cases h
        exact (Node.blames_toValue 0 node _ hbuilt).imp id (.scalar hnode)
  · cases h
    exact .inl rfl

end Yaml
end Polyglot
