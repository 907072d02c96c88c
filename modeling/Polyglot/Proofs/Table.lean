/-
What each operation on a table does to what can be found in it, and to its keys.

Keys are compared by a test that need not be equality: two scalars can be one key and still be
spelled differently.  The lemmas ask only that the test is an equivalence.
-/
import Polyglot.Table

namespace Polyglot
namespace Table

variable {κ α : Type} [BEq κ]

/-- No two keys of the table are the same. -/
def Distinct (t : Table κ α) : Prop := (keys t).Pairwise fun a b => (a == b) = false

theorem find?_nil (k : κ) : find? ([] : Table κ α) k = none := rfl

theorem find?_cons (k k' : κ) (v : α) (t : Table κ α) :
    find? ((k', v) :: t) k = if k == k' then some v else find? t k := by
  rw [find?, List.lookup_cons]
  cases k == k' <;> rfl

theorem mem_of_find? {t : Table κ α} {k : κ} {v : α} (h : find? t k = some v) :
    ∃ k', (k == k') = true ∧ (k', v) ∈ t := by
  induction t with
  | nil => cases h
  | cons e rest ih =>
      obtain ⟨k', v'⟩ := e
      rw [find?_cons] at h
      by_cases hk : (k == k') = true
      · rw [if_pos hk, Option.some.injEq] at h
        exact ⟨k', hk, h ▸ List.mem_cons_self⟩
      · rw [if_neg hk] at h
        obtain ⟨k'', hk'', hmem⟩ := ih h
        exact ⟨k'', hk'', List.mem_cons_of_mem _ hmem⟩

theorem find?_eq_none_iff {t : Table κ α} {k : κ} :
    find? t k = none ↔ ∀ k' ∈ keys t, (k == k') = false := by
  induction t with
  | nil => exact ⟨fun _ k' hk' => absurd hk' List.not_mem_nil, fun _ => rfl⟩
  | cons e rest ih =>
      obtain ⟨k', v'⟩ := e
      show find? ((k', v') :: rest) k = none ↔ ∀ a ∈ k' :: keys rest, (k == a) = false
      rw [find?_cons, List.forall_mem_cons, ← ih]
      cases k == k' <;> simp

theorem contains_iff {t : Table κ α} {k : κ} :
    contains t k = true ↔ ∃ k' ∈ keys t, (k == k') = true := by
  rw [contains, Option.isSome_iff_ne_none, ne_eq, find?_eq_none_iff]
  simp

theorem contains_eq_any (t : Table κ α) (k : κ) : contains t k = (keys t).any (k == ·) := by
  rw [Bool.eq_iff_iff, contains_iff, List.any_eq_true]

theorem contains_eq_false_iff {t : Table κ α} {k : κ} :
    contains t k = false ↔ find? t k = none := by
  rw [contains]
  cases find? t k <;> simp

theorem keys_erase (t : Table κ α) (k : κ) : keys (erase t k) = (keys t).filter (!· == k) := by
  rw [keys, erase, keys, List.filter_map]
  rfl

theorem distinct_nil : Distinct ([] : Table κ α) := List.Pairwise.nil

theorem Distinct.filter {t : Table κ α} (h : Distinct t) (p : κ × α → Bool) :
    Distinct (List.filter p t) :=
  List.Pairwise.sublist (List.filter_sublist.map Prod.fst) h

/-- Every value of a table was written into it. -/
theorem mem_insert {t : Table κ α} {k : κ} {v : α} {e : κ × α} (h : e ∈ insert t k v) :
    e.2 = v ∨ e ∈ t := by
  induction t with
  | nil =>
      rw [insert, List.mem_singleton] at h
      exact .inl (h ▸ rfl)
  | cons first rest ih =>
      obtain ⟨key, value⟩ := first
      rw [insert] at h
      by_cases hk : (key == k) = true
      · rw [if_pos hk, List.mem_cons] at h
        rcases h with rfl | h
        · exact .inl rfl
        · exact .inr (List.mem_cons_of_mem _ h)
      · rw [if_neg hk, List.mem_cons] at h
        rcases h with rfl | h
        · exact .inr List.mem_cons_self
        · exact (ih h).imp id (List.mem_cons_of_mem _)

theorem mem_update {t u : Table κ α} {e : κ × α} (h : e ∈ update t u) :
    (∃ e' ∈ u, e'.2 = e.2) ∨ e ∈ t := by
  induction u generalizing t with
  | nil => exact .inr h
  | cons first rest ih =>
      rcases ih h with ⟨e', he', heq⟩ | he
      · exact .inl ⟨e', List.mem_cons_of_mem _ he', heq⟩
      · rcases mem_insert he with heq | he
        · exact .inl ⟨first, List.mem_cons_self, heq.symm⟩
        · exact .inr he

theorem update_append (t : Table κ α) (u v : List (κ × α)) :
    update t (u ++ v) = update (update t u) v :=
  List.foldl_append

section Equiv

variable [EquivBEq κ]

/-- The key that is looked for and the key that was written can be exchanged. -/
theorem find?_congr {t : Table κ α} {k k' : κ} (h : (k == k') = true) : find? t k = find? t k' := by
  induction t with
  | nil => rfl
  | cons e rest ih => rw [find?_cons, find?_cons, ih, BEq.congr_left h]

/-! ## Writing -/

theorem find?_insert (t : Table κ α) (k k' : κ) (v : α) :
    find? (insert t k v) k' = if k' == k then some v else find? t k' := by
  induction t with
  | nil => rw [insert, find?_cons]
  | cons e rest ih =>
      obtain ⟨key, value⟩ := e
      rw [insert]
      by_cases hk : (key == k) = true
      · rw [if_pos hk, find?_cons, find?_cons, ← BEq.congr_right hk]
        cases k' == key <;> rfl
      · rw [if_neg hk, find?_cons, find?_cons, ih]
        by_cases hk' : (k' == key) = true
        · rw [if_pos hk', if_pos hk', BEq.congr_left hk', if_neg hk]
        · rw [if_neg hk', if_neg hk']

theorem find?_insert_self (t : Table κ α) (k : κ) (v : α) : find? (insert t k v) k = some v := by
  rw [find?_insert, BEq.rfl, if_pos rfl]

/-- A key that is present keeps its place; a new one goes to the end. -/
theorem keys_insert (t : Table κ α) (k : κ) (v : α) :
    keys (insert t k v) = if contains t k then keys t else keys t ++ [k] := by
  induction t with
  | nil => rfl
  | cons e rest ih =>
      obtain ⟨key, value⟩ := e
      rw [insert, contains, find?_cons, BEq.comm (a := k)]
      by_cases hk : (key == k) = true
      · rw [if_pos hk, if_pos hk, Option.isSome_some, if_pos rfl]
        rfl
      · rw [if_neg hk, if_neg hk]
        show key :: keys (insert rest k v) = _
        rw [ih, contains]
        cases (find? rest k).isSome <;> rfl

theorem contains_insert (t : Table κ α) (k k' : κ) (v : α) :
    contains (insert t k v) k' = (k' == k || contains t k') := by
  rw [contains, find?_insert, contains]
  cases k' == k <;> rfl

theorem distinct_insert {t : Table κ α} (h : Distinct t) (k : κ) (v : α) :
    Distinct (insert t k v) := by
  rw [Distinct, keys_insert]
  by_cases hc : contains t k = true
  · rw [if_pos hc]
    exact h
  · rw [if_neg hc, List.pairwise_append]
    refine ⟨h, List.pairwise_singleton _ _, fun a ha b hb => ?_⟩
    rw [List.mem_singleton] at hb
    rw [hb, BEq.comm]
    rw [contains_iff] at hc
    exact Bool.eq_false_iff.mpr fun hka => hc ⟨a, ha, hka⟩

/-! ## Removal -/

theorem find?_erase (t : Table κ α) (k k' : κ) :
    find? (erase t k) k' = if k' == k then none else find? t k' := by
  induction t with
  | nil => cases k' == k <;> rfl
  | cons e rest ih =>
      obtain ⟨key, value⟩ := e
      rw [erase] at ih ⊢
      by_cases hk : (key == k) = true
      · rw [List.filter_cons_of_neg (by simp [hk]), ih, find?_cons, BEq.congr_right hk]
        cases k' == k <;> rfl
      · rw [List.filter_cons_of_pos (by simp [hk]), find?_cons, find?_cons, ih]
        by_cases hk' : (k' == key) = true
        · rw [if_pos hk', if_pos hk', BEq.congr_left hk', if_neg hk]
        · rw [if_neg hk', if_neg hk']

theorem contains_erase (t : Table κ α) (k k' : κ) :
    contains (erase t k) k' = (!(k' == k) && contains t k') := by
  rw [contains, find?_erase, contains]
  cases k' == k <;> rfl

/-- In a table with distinct keys, taking entries away by their value takes away just those. -/
theorem find?_filter {t : Table κ α} (h : Distinct t) (p : α → Bool) (k : κ) :
    find? (List.filter (fun e => p e.2) t) k = (find? t k).filter p := by
  induction t with
  | nil => rfl
  | cons e rest ih =>
      obtain ⟨key, value⟩ := e
      have hrest : Distinct rest := List.Pairwise.of_cons h
      have hhead : ∀ k' ∈ keys rest, (key == k') = false :=
        fun _ hk' => List.rel_of_pairwise_cons h hk'
      rw [find?_cons, List.filter_cons]
      by_cases hp : p value = true
      · rw [if_pos hp, find?_cons, ih hrest]
        cases k == key
        · rfl
        · rw [if_pos rfl, if_pos rfl, Option.filter_some, if_pos hp]
      · rw [if_neg hp, ih hrest]
        by_cases hk : (k == key) = true
        · have hnone : find? rest k = none := by
            rw [find?_congr hk, find?_eq_none_iff]
            exact hhead
          rw [if_pos hk, hnone, Option.filter_some, if_neg hp]
          rfl
        · rw [if_neg hk]

/-! ## Writing one table over another -/

theorem distinct_update {t : Table κ α} (h : Distinct t) (u : Table κ α) :
    Distinct (update t u) := by
  induction u generalizing t with
  | nil => exact h
  | cons e rest ih => exact ih (distinct_insert h e.1 e.2)

theorem distinct_ofList (entries : List (κ × α)) : Distinct (ofList entries) :=
  distinct_update distinct_nil entries

/-- Of several entries for one key the last has the last word. -/
theorem find?_update (t u : Table κ α) (k : κ) :
    find? (update t u) k =
      (((List.filter (k == ·.1) u).getLast?).map Prod.snd).or (find? t k) := by
  induction u generalizing t with
  | nil => rfl
  | cons e rest ih =>
      obtain ⟨key, value⟩ := e
      show find? (update (insert t key value) rest) k = _
      rw [ih, find?_insert, List.filter_cons]
      by_cases hk : (k == key) = true
      · rw [if_pos hk, if_pos hk, List.getLast?_cons]
        cases (List.filter (k == ·.1) rest).getLast? <;> rfl
      · rw [if_neg hk, if_neg hk]

theorem find?_ofList (entries : List (κ × α)) (k : κ) :
    find? (ofList entries) k = ((List.filter (k == ·.1) entries).getLast?).map Prod.snd := by
  rw [ofList, find?_update, find?_nil, Option.or_none]

/-- In a table with distinct keys every entry is found under its key. -/
theorem find?_of_mem {t : Table κ α} (h : Distinct t) {k : κ} {v : α} (hmem : (k, v) ∈ t) :
    find? t k = some v := by
  induction t with
  | nil => cases hmem
  | cons first rest ih =>
      obtain ⟨key, value⟩ := first
      rw [find?_cons]
      rcases List.mem_cons.mp hmem with heq | hrest
      · rw [Prod.mk.injEq] at heq
        rw [heq.1, heq.2, BEq.rfl, if_pos rfl]
      · have hne : (key == k) = false :=
          List.rel_of_pairwise_cons h (List.mem_map_of_mem hrest)
        rw [BEq.comm, hne, if_neg Bool.false_ne_true]
        exact ih (List.Pairwise.of_cons h) hrest

/-- A table with distinct keys is settled by its keys and by what is found under them. -/
theorem ext_of_distinct {t u : Table κ α} (h : Distinct t) (hkeys : keys t = keys u)
    (hfind : ∀ k ∈ keys t, find? t k = find? u k) : t = u := by
  induction t generalizing u with
  | nil =>
      cases u with
      | nil => rfl
      | cons e' rest' => cases hkeys
  | cons e rest ih =>
      obtain ⟨key, value⟩ := e
      cases u with
      | nil => cases hkeys
      | cons e' rest' =>
          obtain ⟨key', value'⟩ := e'
          have hcons : key :: keys rest = key' :: keys rest' := hkeys
          rw [List.cons.injEq] at hcons
          obtain ⟨rfl, hrest⟩ := hcons
          have hvalue := hfind key List.mem_cons_self
          rw [find?_cons, find?_cons, BEq.rfl, if_pos rfl, if_pos rfl, Option.some.injEq] at hvalue
          have htail : rest = rest' := by
            apply ih (List.Pairwise.of_cons h) hrest
            intro k hk
            have hne : (key == k) = false := List.rel_of_pairwise_cons h hk
            have hboth := hfind k (List.mem_cons_of_mem key hk)
            rw [find?_cons, find?_cons, BEq.comm, hne] at hboth
            exact hboth
          rw [hvalue, htail]

/-- The order of the entries does not count where keys are distinct. -/
theorem find?_perm {t u : Table κ α} (h : Distinct t) (hperm : List.Perm t u) (k : κ) :
    find? t k = find? u k := by
  cases hfind : find? u k with
  | none =>
      rw [find?_eq_none_iff] at hfind ⊢
      exact fun k' hk' => hfind k' ((hperm.map Prod.fst).mem_iff.mp hk')
  | some v =>
      obtain ⟨k', hk', hmem⟩ := mem_of_find? hfind
      rw [find?_congr hk']
      exact find?_of_mem h (hperm.mem_iff.mpr hmem)

/-- Written over another, a table with distinct keys has the first word on each of them. -/
theorem find?_update_of_distinct (t : Table κ α) {u : Table κ α} (h : Distinct u) (k : κ) :
    find? (update t u) k = (find? u k).or (find? t k) := by
  induction u generalizing t with
  | nil => rfl
  | cons e rest ih =>
      obtain ⟨key, value⟩ := e
      show find? (update (insert t key value) rest) k = _
      rw [ih _ (List.Pairwise.of_cons h), find?_insert, find?_cons]
      by_cases hk : (k == key) = true
      · have hnone : find? rest k = none := by
          rw [find?_congr hk, find?_eq_none_iff]
          exact fun _ hk' => List.rel_of_pairwise_cons h hk'
        rw [if_pos hk, if_pos hk, hnone]
        rfl
      · rw [if_neg hk, if_neg hk]

/-- Keys that are there keep their place, and those that are new follow in their own order. -/
theorem keys_update (t : Table κ α) {u : Table κ α} (h : Distinct u) :
    keys (update t u) = keys t ++ (keys u).filter fun k => !contains t k := by
  induction u generalizing t with
  | nil => exact (List.append_nil _).symm
  | cons e rest ih =>
      obtain ⟨key, value⟩ := e
      have hsame : (keys rest).filter (fun k => !contains (insert t key value) k) =
          (keys rest).filter fun k => !contains t k := by
        refine List.filter_congr fun k hk => ?_
        have hne : (key == k) = false := List.rel_of_pairwise_cons h hk
        rw [contains_insert, BEq.comm, hne, Bool.false_or]
      show keys (update (insert t key value) rest) =
        keys t ++ (key :: keys rest).filter fun k => !contains t k
      rw [ih _ (List.Pairwise.of_cons h), hsame, keys_insert]
      cases hc : contains t key with
      | true => rw [if_pos rfl, List.filter_cons_of_neg (by rw [hc]; decide)]
      | false =>
          rw [if_neg Bool.false_ne_true, List.filter_cons_of_pos (by rw [hc]; rfl),
            List.append_assoc]
          rfl

theorem insert_of_not_contains {t : Table κ α} {k : κ} (h : contains t k = false) (v : α) :
    insert t k v = List.append t [(k, v)] := by
  induction t with
  | nil => rfl
  | cons first rest ih =>
      obtain ⟨key, value⟩ := first
      rw [contains, find?_cons] at h
      by_cases hk : (k == key) = true
      · rw [if_pos hk] at h
        cases h
      · rw [if_neg hk] at h
        rw [insert, BEq.comm, if_neg hk, ih h]
        rfl

theorem contains_update_of_distinct (t : Table κ α) {u : Table κ α} (h : Distinct u) (k : κ) :
    contains (update t u) k = (contains u k || contains t k) := by
  rw [contains, find?_update_of_distinct t h, contains, contains]
  cases find? u k <;> rfl

/-- An entry that goes to the table on top may as well be written after it. -/
theorem update_insert {t u : Table κ α} (ht : Distinct t) (hu : Distinct u) (k : κ) (v : α) :
    update t (insert u k v) = insert (update t u) k v := by
  apply ext_of_distinct (distinct_update ht _)
  · rw [keys_update t (distinct_insert hu k v), keys_insert, keys_insert, keys_update t hu,
      contains_update_of_distinct t hu]
    cases hku : contains u k <;> cases hkt : contains t k <;> simp [hkt]
  · intro k' _
    rw [find?_update_of_distinct t (distinct_insert hu k v), find?_insert, find?_insert,
      find?_update_of_distinct t hu]
    cases k' == k <;> rfl

/-- Entries may be written over the upper table first. -/
theorem update_update {t u : Table κ α} (ht : Distinct t) (hu : Distinct u)
    (entries : List (κ × α)) : update t (update u entries) = update (update t u) entries := by
  induction entries generalizing u with
  | nil => rfl
  | cons e rest ih =>
      show update t (update (insert u e.1 e.2) rest) = update (insert (update t u) e.1 e.2) rest
      rw [ih (distinct_insert hu e.1 e.2), update_insert ht hu]

/-! ## Writing and removal without effect -/

/-- Entries with new keys of their own are put at the end as they are. -/
theorem update_eq_append {t u : Table κ α} (h : Distinct u)
    (hnew : ∀ k ∈ keys u, contains t k = false) : update t u = List.append t u := by
  induction u generalizing t with
  | nil => exact (List.append_nil _).symm
  | cons e rest ih =>
      obtain ⟨key, value⟩ := e
      have hkey : contains t key = false := hnew key List.mem_cons_self
      show update (insert t key value) rest = _
      rw [ih (List.Pairwise.of_cons h)]
      · rw [insert_of_not_contains hkey]
        exact List.append_assoc t [(key, value)] rest
      · intro k hk
        have hne : (key == k) = false := List.rel_of_pairwise_cons h hk
        rw [contains_insert, BEq.comm, hne, hnew k (List.mem_cons_of_mem _ hk), Bool.or_self]

/-- A list that names no key twice is a table as it stands. -/
theorem ofList_eq_self {t : Table κ α} (h : Distinct t) : ofList t = t :=
  update_eq_append h fun _ _ => rfl

theorem erase_insert_self (t : Table κ α) (k : κ) (v : α) : erase (insert t k v) k = erase t k := by
  induction t with
  | nil => simp [insert, erase]
  | cons first rest ih =>
      obtain ⟨key, value⟩ := first
      rw [insert]
      by_cases hk : (key == k) = true
      · simp [hk, erase]
      · rw [if_neg hk]
        simp only [erase] at ih ⊢
        rw [List.filter_cons, List.filter_cons, ih]

theorem insert_eq_self_iff {t : Table κ α} {k : κ} {v : α} :
    insert t k v = t ↔ find? t k = some v := by
  induction t with
  | nil => simp [insert, find?]
  | cons first rest ih =>
      obtain ⟨key, value⟩ := first
      rw [insert, find?_cons, BEq.comm (a := k)]
      by_cases hk : (key == k) = true
      · simp [hk, eq_comm]
      · simp [hk, ih]

theorem erase_eq_self_iff {t : Table κ α} {k : κ} : erase t k = t ↔ contains t k = false := by
  rw [erase, List.filter_eq_self, contains_eq_false_iff, find?_eq_none_iff]
  constructor
  · intro h k' hk'
    obtain ⟨e, he, rfl⟩ := List.mem_map.mp hk'
    rw [BEq.comm]
    exact Bool.not_eq_true' _ ▸ h e he
  · intro h e he
    rw [BEq.comm, h e.1 (List.mem_map_of_mem he)]
    rfl

end Equiv

/-! ## Keys that are equal or apart -/

section Lawful

variable [LawfulBEq κ]

theorem contains_iff_mem {t : Table κ α} {k : κ} : contains t k = true ↔ k ∈ keys t := by
  simp [contains_iff]

/-- In a table with distinct keys, what is found are its entries. -/
theorem find?_eq_some_iff_mem {t : Table κ α} (h : Distinct t) {k : κ} {v : α} :
    find? t k = some v ↔ (k, v) ∈ t := by
  constructor
  · intro hfind
    obtain ⟨k', hk', hmem⟩ := mem_of_find? hfind
    rw [beq_iff_eq.mp hk']
    exact hmem
  · exact find?_of_mem h

/-- What is found after one table was written over another was in one of the two. -/
theorem mem_or_find?_of_update {t u : Table κ α} {k : κ} {v : α}
    (h : find? (update t u) k = some v) : (k, v) ∈ u ∨ find? t k = some v := by
  rw [find?_update] at h
  cases hlast : (List.filter (k == ·.1) u).getLast? with
  | none =>
      rw [hlast] at h
      exact .inr h
  | some e =>
      rw [hlast] at h
      obtain ⟨hmem, hkey⟩ := List.mem_filter.mp (List.mem_of_getLast? hlast)
      have hk : k = e.1 := beq_iff_eq.mp hkey
      have hv : e.2 = v := Option.some.inj h
      rw [hk, ← hv]
      exact .inl hmem

theorem mem_keys_insert {t : Table κ α} {k k' : κ} {v : α} :
    k' ∈ keys (insert t k v) ↔ k' = k ∨ k' ∈ keys t := by
  rw [← contains_iff_mem, contains_insert, Bool.or_eq_true, beq_iff_eq, contains_iff_mem]

theorem mem_keys_update {t u : Table κ α} {k : κ} :
    k ∈ keys (update t u) ↔ k ∈ keys u ∨ k ∈ keys t := by
  induction u generalizing t with
  | nil => simp [update, keys]
  | cons e rest ih =>
      show k ∈ keys (update (insert t e.1 e.2) rest) ↔ k ∈ e.1 :: keys rest ∨ k ∈ keys t
      rw [ih, mem_keys_insert, List.mem_cons]
      exact or_left_comm.trans or_assoc.symm

theorem mem_keys_ofList {entries : List (κ × α)} {k : κ} :
    k ∈ keys (ofList entries) ↔ k ∈ keys entries := by
  rw [ofList, mem_keys_update]
  exact or_iff_left List.not_mem_nil

end Lawful

end Table
end Polyglot
