/-
The tables of a registry agree with each other.

Routes, rows, grammars and queries are four tables that different calls change.  `Coherent` says how
they hang together, and it holds after every run of calls on an empty registry, whether they succeed
or not.
-/
import Polyglot.Language.Builtin
import Polyglot.Proofs.Registry.Call

namespace Polyglot
namespace Registry

/-! ## Routes of several extensions -/

theorem find?_route (routes : Table String Language) (extensions : List String)
    (language : Language) (e : String) :
    Table.find? (route routes extensions language) e =
      if e ∈ extensions.map Text.dropDot then some language else Table.find? routes e := by
  induction extensions generalizing routes with
  | nil => rfl
  | cons ext rest ih =>
      show Table.find? (route (Table.insert routes (Text.dropDot ext) language) rest language) e = _
      rw [ih, Table.find?_insert, List.map_cons]
      by_cases hrest : e ∈ rest.map Text.dropDot
      · rw [if_pos hrest, if_pos (List.mem_cons_of_mem _ hrest)]
      · rw [if_neg hrest]
        by_cases heq : e = Text.dropDot ext
        · rw [if_pos (beq_iff_eq.mpr heq), if_pos (heq ▸ List.mem_cons_self)]
        · rw [if_neg (mt beq_iff_eq.mp heq), if_neg]
          exact fun h => (List.mem_cons.mp h).elim heq hrest

theorem distinct_route {routes : Table String Language} (h : Table.Distinct routes)
    (extensions : List String) (language : Language) :
    Table.Distinct (route routes extensions language) := by
  induction extensions generalizing routes with
  | nil => exact h
  | cons ext rest ih => exact ih (Table.distinct_insert h (Text.dropDot ext) language)

/-! ## Coherence -/

structure Coherent (r : Registry) : Prop where
  /-- No extension is routed twice. -/
  distinct : Table.Distinct r.routes
  /-- Every language that an extension is routed to has a row. -/
  routed : ∀ ext language, Table.find? r.routes ext = some language → r.contains language = true
  /-- A row stands under its own language. -/
  keyed : ∀ language row, Table.find? r.rows language = some row → row.language = language
  /-- Every extension that a row declares is routed to its language. -/
  declared : ∀ language row, Table.find? r.rows language = some row →
    ∀ ext ∈ row.extensions, Table.find? r.routes (Text.dropDot ext) = some language
  /-- Grammars are kept for languages with a row only. -/
  grammars : ∀ language g, Table.find? r.grammars language = some g → r.contains language = true
  /-- Queries are kept for languages with a row only. -/
  queries : ∀ language text, Table.find? r.queries language = some text →
    r.contains language = true

theorem coherent_empty : Coherent empty where
  distinct := Table.distinct_nil
  routed _ _ h := by cases h
  keyed _ _ h := by cases h
  declared _ _ h := by cases h
  grammars _ _ h := by cases h
  queries _ _ h := by cases h

theorem contains_insert_row (r : Registry) (row : Row) (language : Language)
    (h : r.contains language = true) :
    Table.contains (Table.insert r.rows row.language row) language = true := by
  rw [Table.contains_insert, show Table.contains r.rows language = true from h, Bool.or_true]

/-- Registration routes the extensions of the new row.  It takes none away from another row, because
those would have been in conflict. -/
theorem Coherent.register {r : Registry} (h : Coherent r) (row : Row)
    (free : ∀ ext ∈ row.extensions, ∀ owner,
      Table.find? r.routes (Text.dropDot ext) = some owner → owner = row.language) :
    Coherent { r with
      rows := Table.insert r.rows row.language row,
      routes := route r.routes row.extensions row.language } where
  distinct := distinct_route h.distinct row.extensions row.language
  routed ext language hfind := by
    rw [find?_route] at hfind
    by_cases hext : ext ∈ row.extensions.map Text.dropDot
    · rw [if_pos hext, Option.some.injEq] at hfind
      rw [← hfind]
      exact contains_of_find? (Table.find?_insert_self r.rows row.language row)
    · rw [if_neg hext] at hfind
      exact contains_insert_row r row language (h.routed ext language hfind)
  keyed language row' hfind := by
    rw [Table.find?_insert] at hfind
    by_cases heq : (language == row.language) = true
    · rw [if_pos heq, Option.some.injEq] at hfind
      rw [← hfind, eq_of_beq heq]
    · rw [if_neg heq] at hfind
      exact h.keyed language row' hfind
  declared language row' hfind ext hext := by
    rw [Table.find?_insert] at hfind
    rw [find?_route]
    by_cases heq : (language == row.language) = true
    · rw [if_pos heq, Option.some.injEq] at hfind
      rw [if_pos (List.mem_map_of_mem (hfind ▸ hext)), eq_of_beq heq]
    · rw [if_neg heq] at hfind
      have hroute := h.declared language row' hfind ext hext
      by_cases hmem : Text.dropDot ext ∈ row.extensions.map Text.dropDot
      · obtain ⟨ext', hext', hsame⟩ := List.mem_map.mp hmem
        rw [if_pos hmem, free ext' hext' language (hsame ▸ hroute)]
      · rw [if_neg hmem]
        exact hroute
  grammars language g hfind := contains_insert_row r row language (h.grammars language g hfind)
  queries language text hfind := contains_insert_row r row language (h.queries language text hfind)

theorem contains_erase_row {r : Registry} {language other : Language} (hne : other ≠ language)
    (h : r.contains other = true) : Table.contains (Table.erase r.rows language) other = true := by
  rw [Table.contains_erase, show Table.contains r.rows other = true from h, Bool.and_true,
    Bool.not_eq_true', beq_eq_false_iff_ne]
  exact hne

/-- What is found after a removal belongs to another language and was there before. -/
theorem find?_of_erase {α : Type} {t : Table Language α} {language other : Language} {v : α}
    (h : Table.find? (Table.erase t language) other = some v) :
    other ≠ language ∧ Table.find? t other = some v := by
  rw [Table.find?_erase] at h
  by_cases heq : (other == language) = true
  · rw [if_pos heq] at h
    cases h
  · rw [if_neg heq] at h
    exact ⟨fun hc => heq (beq_iff_eq.mpr hc), h⟩

theorem find?_routes_unregister {r : Registry} (h : Coherent r) (language : Language)
    (ext : String) :
    Table.find? (r.routes.filter fun e => e.2 ≠ language) ext =
      (Table.find? r.routes ext).filter (· ≠ language) :=
  Table.find?_filter h.distinct (fun l => decide (l ≠ language)) ext

theorem Coherent.unregister {r : Registry} (h : Coherent r) (language : Language) :
    Coherent {
      rows := Table.erase r.rows language,
      routes := r.routes.filter fun e => e.2 ≠ language,
      grammars := Table.erase r.grammars language,
      queries := Table.erase r.queries language } where
  distinct := h.distinct.filter _
  routed ext other hfind := by
    rw [find?_routes_unregister h, Option.filter_eq_some_iff, decide_eq_true_eq] at hfind
    exact contains_erase_row hfind.2 (h.routed ext other hfind.1)
  keyed other row hfind := h.keyed other row (find?_of_erase hfind).2
  declared other row hfind ext hext := by
    obtain ⟨hne, hrow⟩ := find?_of_erase hfind
    rw [find?_routes_unregister h, h.declared other row hrow ext hext, Option.filter_some,
      if_pos (decide_eq_true hne)]
  grammars other g hfind :=
    contains_erase_row (find?_of_erase hfind).1 (h.grammars other g (find?_of_erase hfind).2)
  queries other text hfind :=
    contains_erase_row (find?_of_erase hfind).1 (h.queries other text (find?_of_erase hfind).2)

theorem Coherent.addAlias {r : Registry} (h : Coherent r) (ext : String) (language : Language)
    (present : r.contains language = true)
    (free : ∀ owner, Table.find? r.routes (Text.dropDot ext) = some owner → owner = language) :
    Coherent { r with routes := Table.insert r.routes (Text.dropDot ext) language } where
  distinct := Table.distinct_insert h.distinct (Text.dropDot ext) language
  routed e other hfind := by
    rw [Table.find?_insert] at hfind
    by_cases heq : (e == Text.dropDot ext) = true
    · rw [if_pos heq, Option.some.injEq] at hfind
      exact hfind ▸ present
    · rw [if_neg heq] at hfind
      exact h.routed e other hfind
  keyed := h.keyed
  declared other row hfind e he := by
    have hroute := h.declared other row hfind e he
    rw [Table.find?_insert]
    by_cases heq : (Text.dropDot e == Text.dropDot ext) = true
    · rw [if_pos heq, free other (eq_of_beq heq ▸ hroute)]
    · rw [if_neg heq]
      exact hroute
  grammars := h.grammars
  queries := h.queries

/-- The registry without a language and all that belongs to it. -/
def without (r : Registry) (language : Language) : Registry where
  rows := Table.erase r.rows language
  routes := r.routes.filter fun e => e.2 ≠ language
  grammars := Table.erase r.grammars language
  queries := Table.erase r.queries language

theorem unregister_eq (r : Registry) (language : Language) :
    r.unregister language = if r.contains language then some (r.without language) else none := rfl

/-- What is kept for one more language belongs to a language with a row. -/
theorem contains_of_find?_insert {α : Type} {r : Registry} {kept : Table Language α}
    {language other : Language} {v v' : α} (present : r.contains language = true)
    (h : ∀ l a, Table.find? kept l = some a → r.contains l = true)
    (hfind : Table.find? (Table.insert kept language v) other = some v') :
    r.contains other = true := by
  rw [Table.find?_insert] at hfind
  by_cases heq : (other == language) = true
  · rw [eq_of_beq heq]
    exact present
  · rw [if_neg heq] at hfind
    exact h other v' hfind

theorem Coherent.effect {r r' : Registry} {call : Call} (h : Coherent r)
    (heff : Effect r call r') : Coherent r' := by
  cases heff with
  | register row free => exact h.register row free
  | unregister language present => exact h.unregister language
  | addAlias ext language present free => exact h.addAlias ext language present free
  | grammarKept | queryKept => exact h
  | grammarLoaded packages language present new loads =>
      exact { h with
        grammars := fun _ _ hfind =>
          contains_of_find?_insert (contains_of_find? present) h.grammars hfind }
  | queryRead packages language present new reads =>
      exact { h with
        queries := fun _ _ hfind =>
          contains_of_find?_insert (contains_of_find? present) h.queries hfind }

theorem coherent_run (calls : List Call) : Coherent (run empty calls) := by
  refine run_induction coherent_empty (fun r call h => ?_) calls
  rcases call.after_cases r with ⟨_, hsame⟩ | ⟨_, heff⟩
  · rw [hsame]
    exact h
  · exact h.effect heff

/-! ## Look-up in a coherent registry -/

theorem Coherent.lookup {r : Registry} (h : Coherent r) {path : String} {language : Language}
    (hid : r.identify path = some language) :
    ∃ row, r.rowOfPath path = some row ∧ r.row language = .ok row ∧
      r.lineLists language = .ok row.effectiveLineLists ∧ r.isSupported path = true := by
  obtain ⟨ext, _, hroute⟩ := Option.bind_eq_some_iff.mp hid
  obtain ⟨row, hrow⟩ := find?_of_contains (h.routed ext language hroute)
  have hok : r.row language = .ok row := by rw [Registry.row, hrow]
  refine ⟨row, ?_, hok, ?_, ?_⟩
  · rw [rowOfPath, hid]
    exact hrow
  · rw [lineLists, hok]
    rfl
  · rw [isSupported, hid]
    rfl

/-- After every run of calls the tables agree, so a language that is identified for a path has a
row: it is the row of the path, and the lists of the language can be had. -/
theorem tables_agree_after_run (calls : List Call) :
    Coherent (run empty calls) ∧
      ∀ path language, (run empty calls).identify path = some language →
        ∃ row, (run empty calls).rowOfPath path = some row ∧
          (run empty calls).row language = .ok row ∧
          (run empty calls).lineLists language = .ok row.effectiveLineLists ∧
          (run empty calls).isSupported path = true :=
  ⟨coherent_run calls, fun _ _ hid => (coherent_run calls).lookup hid⟩

/-- The row of an aliased extension, after a registration and a load that failed and a removal. -/
theorem tables_agree_after_sample :
    let calls : List Call :=
      [.register Row.rust, .register Row.python, .register { Row.go with extensions := [".rs"] },
       .grammar [] .rust, .addAlias ".inc" .rust, .unregister .python]
    (run empty calls).identify "lib/config.inc" = some .rust ∧
      ∃ row, (run empty calls).rowOfPath "lib/config.inc" = some row ∧
        (run empty calls).row .rust = .ok row := by
  intro calls
  have hid : (run empty calls).identify "lib/config.inc" = some .rust := by decide +kernel
  obtain ⟨row, hpath, hrow, _⟩ := (tables_agree_after_run calls).2 _ _ hid
  exact ⟨hid, row, hpath, hrow⟩

end Registry
end Polyglot
