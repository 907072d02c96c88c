/-
Rows that are registered one after the other.

Each row meets the routes that those before it have left, and the first that is turned down puts an
end to it.  Registration never takes an extension away from its owner, so that a row is turned down
depends on pairs only: a row and an owner from before, or two rows of different languages
(`Contested`).  Where nothing is contested the rows are written into the table of rows, and what they
declare into the routes (`registerAll_of_fits`).  Neither depends on the order of the rows, as long
as no language has two of them.
-/
import Polyglot.Proofs.Registry.Build

namespace Polyglot
namespace Registry

open Table (find? Distinct)

/-- The row declares the extension, with a dot in front of it or without. -/
def Declares (row : Row) (e : String) : Prop := e ∈ row.extensions.map Text.dropDot

instance (row : Row) (e : String) : Decidable (Declares row e) :=
  inferInstanceAs (Decidable (e ∈ row.extensions.map Text.dropDot))

/-- A row declares an extension that belongs to another language, or that a row of another language
declares as well. -/
def Contested (r : Registry) (rows : List Row) : Prop :=
  ∃ row ∈ rows, ∃ e, Declares row e ∧ ∃ l, l ≠ row.language ∧
    (find? r.routes e = some l ∨ ∃ other ∈ rows, other.language = l ∧ Declares other e)

/-- Two registries hold the same: what is found in them is the same, and only the order in which
languages and extensions stand may differ. -/
structure Alike (r r' : Registry) : Prop where
  rows : ∀ l, find? r.rows l = find? r'.rows l
  routes : ∀ e, find? r.routes e = find? r'.routes e
  grammars : r.grammars = r'.grammars
  queries : r.queries = r'.queries
  languages : r.languages.Perm r'.languages

/-! ## What rows declare -/

/-- The routes that a row asks for. -/
def routesOf (row : Row) : List (String × Language) :=
  row.extensions.map fun ext => (Text.dropDot ext, row.language)

/-- The rows under their languages. -/
def keyed (rows : List Row) : Table Language Row := rows.map fun row => (row.language, row)

theorem mem_routesOf_iff {row : Row} {e : String} {l : Language} :
    (e, l) ∈ routesOf row ↔ row.language = l ∧ Declares row e := by
  rw [routesOf, Declares, List.mem_map, List.mem_map]
  constructor
  · rintro ⟨ext, hext, hpair⟩
    obtain ⟨rfl, rfl⟩ := Prod.mk.inj hpair
    exact ⟨rfl, ext, hext, rfl⟩
  · rintro ⟨rfl, ext, hext, rfl⟩
    exact ⟨ext, hext, rfl⟩

theorem mem_flatMap_routesOf_iff {rows : List Row} {e : String} {l : Language} :
    (e, l) ∈ rows.flatMap routesOf ↔ ∃ row ∈ rows, row.language = l ∧ Declares row e := by
  rw [List.mem_flatMap]
  exact exists_congr fun row => and_congr_right fun _ => mem_routesOf_iff

theorem route_eq_update (routes : Table String Language) (row : Row) :
    route routes row.extensions row.language = Table.update routes (routesOf row) := by
  rw [route, Table.update, routesOf, List.foldl_map]

/-! ## One row -/

/-- A row asks for its extensions on behalf of one language, so it stands in its own way nowhere. -/
theorem fits_routesOf_iff {routes : Table String Language} {row : Row} :
    Fits routes (routesOf row) ↔
      ∀ ext ∈ row.extensions, ∀ owner,
        find? routes (Text.dropDot ext) = some owner → owner = row.language := by
  constructor
  · intro h ext hext owner
    exact h.1 (Text.dropDot ext, row.language) (List.mem_map_of_mem hext) owner
  · intro hfree
    refine ⟨fun a ha => ?_, ?_⟩
    · obtain ⟨ext, hext, rfl⟩ := List.mem_map.mp ha
      exact hfree ext hext
    · exact List.pairwise_map.mpr (List.pairwise_of_forall fun _ _ _ => rfl)

theorem register_of_fits {r : Registry} {row : Row} (h : Fits r.routes (routesOf row)) :
    r.register row =
      .ok { r with
        rows := Table.insert r.rows row.language row,
        routes := Table.update r.routes (routesOf row) } := by
  have hfree : r.conflict? row = none := conflict?_eq_none_iff.mpr (fits_routesOf_iff.mp h)
  simp only [register, hfree, route_eq_update]

theorem register_of_not_fits {r : Registry} {row : Row} (h : ¬Fits r.routes (routesOf row)) :
    ∃ fault, r.register row = .error fault := by
  obtain hrefused | ⟨r', -, heff⟩ := register_cases r row
  · exact hrefused
  · cases heff with
    | register _ free => exact absurd (fits_routesOf_iff.mpr free) h

/-! ## All rows -/

/-- Routes fit together if the first ones fit and the others fit what these make of the table. -/
theorem fits_append {routes : Table String Language} {a b : List (String × Language)} :
    Fits routes (a ++ b) ↔ Fits routes a ∧ Fits (Table.update routes a) b := by
  induction a generalizing routes with
  | nil => exact (and_iff_right (fits_nil routes)).symm
  | cons first rest ih =>
      rw [List.cons_append, fits_cons, fits_cons, ih, and_assoc]
      rfl

theorem registerAll_cons (r : Registry) (row : Row) (rest : List Row) :
    registerAll r (row :: rest) = r.register row >>= fun r' => registerAll r' rest :=
  List.foldlM_cons

theorem registerAll_of_fits {r : Registry} {rows : List Row}
    (h : Fits r.routes (rows.flatMap routesOf)) :
    registerAll r rows =
      .ok { r with
        rows := Table.update r.rows (keyed rows),
        routes := Table.update r.routes (rows.flatMap routesOf) } := by
  induction rows generalizing r with
  | nil => rfl
  | cons row rest ih =>
      rw [List.flatMap_cons, fits_append] at h
      obtain ⟨hrow, hrest⟩ := h
      rw [registerAll_cons, register_of_fits hrow, List.flatMap_cons, Table.update_append]
      exact ih hrest

theorem registerAll_of_not_fits {r : Registry} {rows : List Row}
    (h : ¬Fits r.routes (rows.flatMap routesOf)) : ∃ fault, registerAll r rows = .error fault := by
  induction rows generalizing r with
  | nil => exact absurd (fits_nil _) h
  | cons row rest ih =>
      rw [List.flatMap_cons, fits_append, not_and] at h
      rw [registerAll_cons]
      by_cases hrow : Fits r.routes (routesOf row)
      · rw [register_of_fits hrow]
        exact ih (h hrow)
      · obtain ⟨fault, hfault⟩ := register_of_not_fits hrow
        rw [hfault]
        exact ⟨fault, rfl⟩

theorem fits_flatMap_iff {r : Registry} {rows : List Row} :
    Fits r.routes (rows.flatMap routesOf) ↔ ¬r.Contested rows := by
  simp only [fits_iff_forall, mem_flatMap_routesOf_iff]
  constructor
  · rintro h ⟨row, hrow, e, hdeclares, l, hne, howned⟩
    exact hne (h e row.language ⟨row, hrow, rfl, hdeclares⟩ l howned)
  · rintro hfree e _ ⟨row, hrow, rfl, hdeclares⟩ l howned
    by_contra hne
    exact hfree ⟨row, hrow, e, hdeclares, l, hne, howned⟩

theorem registerAll_fails_iff {r : Registry} {rows : List Row} :
    (∃ fault, registerAll r rows = .error fault) ↔ r.Contested rows := by
  constructor
  · rintro ⟨fault, hfault⟩
    by_contra hfree
    rw [registerAll_of_fits (fits_flatMap_iff.mpr hfree)] at hfault
    cases hfault
  · intro hcontested
    exact registerAll_of_not_fits fun hfits => fits_flatMap_iff.mp hfits hcontested

/-- What registration of several rows comes to where it does not fail. -/
theorem registerAll_eq_ok {r r' : Registry} {rows : List Row} (h : registerAll r rows = .ok r') :
    Fits r.routes (rows.flatMap routesOf) ∧
      r' = { r with
        rows := Table.update r.rows (keyed rows),
        routes := Table.update r.routes (rows.flatMap routesOf) } := by
  by_cases hfits : Fits r.routes (rows.flatMap routesOf)
  · rw [registerAll_of_fits hfits] at h
    exact ⟨hfits, (Except.ok.inj h).symm⟩
  · obtain ⟨fault, hfault⟩ := registerAll_of_not_fits hfits
    rw [hfault] at h
    cases h

section Order

variable {r : Registry} {rows reordered : List Row}

theorem contested_perm (h : reordered.Perm rows) : r.Contested reordered ↔ r.Contested rows := by
  unfold Contested
  simp only [h.mem_iff]

theorem distinct_keyed (h : rows.Pairwise fun a b => a.language ≠ b.language) :
    Distinct (keyed rows) := by
  rw [Distinct, Table.keys, keyed, List.map_map, List.pairwise_map]
  exact h.imp fun hne => beq_eq_false_iff_ne.mpr hne

theorem find?_keyed_of_mem (h : rows.Pairwise fun a b => a.language ≠ b.language) {row : Row}
    (hrow : row ∈ rows) : find? (keyed rows) row.language = some row :=
  Table.find?_of_mem (distinct_keyed h) (List.mem_map_of_mem hrow)

theorem find?_keyed_of_absent {l : Language} (h : ∀ row ∈ rows, row.language ≠ l) :
    find? (keyed rows) l = none := by
  refine Table.find?_eq_none_iff.mpr fun l' hl' => ?_
  rw [keyed, Table.keys, List.map_map] at hl'
  obtain ⟨row, hrow, rfl⟩ := List.mem_map.mp hl'
  exact beq_eq_false_iff_ne.mpr (h row hrow).symm

theorem Fits.find?_routes_iff (h : Fits r.routes (rows.flatMap routesOf)) {e : String}
    {l : Language} :
    find? (Table.update r.routes (rows.flatMap routesOf)) e = some l ↔
      find? r.routes e = some l ∨ ∃ row ∈ rows, row.language = l ∧ Declares row e := by
  rw [h.find?_update_eq_some_iff, mem_flatMap_routesOf_iff]

theorem alike_of_perm {r₁ r₂ : Registry}
    (hlanguages : rows.Pairwise fun a b => a.language ≠ b.language) (hperm : reordered.Perm rows)
    (h₁ : registerAll r rows = .ok r₁) (h₂ : registerAll r reordered = .ok r₂) : Alike r₁ r₂ := by
  obtain ⟨hfits₁, rfl⟩ := registerAll_eq_ok h₁
  obtain ⟨hfits₂, rfl⟩ := registerAll_eq_ok h₂
  have hdistinct₁ := distinct_keyed hlanguages
  have hkeyed : (keyed reordered).Perm (keyed rows) := hperm.map _
  have hdistinct₂ : Distinct (keyed reordered) :=
    (hkeyed.map Prod.fst).symm.pairwise hdistinct₁ fun hab => by rwa [BEq.comm]
  refine ⟨fun l => ?_, fun e => ?_, rfl, rfl, ?_⟩
  · rw [Table.find?_update_of_distinct _ hdistinct₁, Table.find?_update_of_distinct _ hdistinct₂,
      Table.find?_perm hdistinct₂ hkeyed]
  · refine Option.ext fun l => ?_
    rw [hfits₁.find?_routes_iff, hfits₂.find?_routes_iff]
    simp only [hperm.mem_iff]
  · rw [languages, languages, Table.keys_update _ hdistinct₁, Table.keys_update _ hdistinct₂]
    exact ((hkeyed.map Prod.fst).symm.filter _).append_left _

end Order

/-- Rows of different languages are registered one after the other unless something is contested,
whatever their order.  All orders lead to registries that hold the same: a language has the new row,
or else the one it had, an extension belongs to its owner from before or to the language that declares
it, and what is kept of grammars and queries is as it was. -/
theorem registerAll_in_any_order (r : Registry) {rows reordered : List Row}
    (hlanguages : rows.Pairwise fun a b => a.language ≠ b.language)
    (hperm : reordered.Perm rows) :
    ((∃ fault, registerAll r rows = .error fault) ↔ r.Contested rows) ∧
    ((∃ fault, registerAll r reordered = .error fault) ↔
      ∃ fault, registerAll r rows = .error fault) ∧
    ∀ r₁, registerAll r rows = .ok r₁ →
      (∃ r₂, registerAll r reordered = .ok r₂ ∧ Alike r₁ r₂) ∧
      (∀ row ∈ rows, find? r₁.rows row.language = some row) ∧
      (∀ l, (∀ row ∈ rows, row.language ≠ l) → find? r₁.rows l = find? r.rows l) ∧
      (∀ e l, find? r₁.routes e = some l ↔
        find? r.routes e = some l ∨ ∃ row ∈ rows, row.language = l ∧ Declares row e) ∧
      r₁.grammars = r.grammars ∧ r₁.queries = r.queries := by
  refine ⟨registerAll_fails_iff, ?_, fun r₁ h₁ => ?_⟩
  · rw [registerAll_fails_iff, registerAll_fails_iff, contested_perm hperm]
  · obtain ⟨hfits, hr₁⟩ := registerAll_eq_ok h₁
    have hfits₂ : Fits r.routes (reordered.flatMap routesOf) := by
      rw [fits_flatMap_iff, contested_perm hperm, ← fits_flatMap_iff]
      exact hfits
    have h₂ := registerAll_of_fits hfits₂
    have hrows (l : Language) : find? r₁.rows l = (find? (keyed rows) l).or (find? r.rows l) := by
      rw [hr₁]
      exact Table.find?_update_of_distinct _ (distinct_keyed hlanguages) l
    refine ⟨⟨_, h₂, alike_of_perm hlanguages hperm h₁ h₂⟩, fun row hrow => ?_, fun l hl => ?_,
      fun e l => ?_, ?_, ?_⟩
    · rw [hrows, find?_keyed_of_mem hlanguages hrow]
      rfl
    · rw [hrows, find?_keyed_of_absent hl]
      rfl
    · rw [hr₁]
      exact hfits.find?_routes_iff
    · rw [hr₁]
    · rw [hr₁]

namespace Sample

/-- A registry in which a language has a row and an alias. -/
def seeded : Registry := run empty [.register Row.rust, .addAlias "inc" .rust]

/-- Two new languages, and a second row for the one that is there. -/
def newcomers : List Row :=
  [Row.go, { Row.rust with extensions := [".inc", "rlib"] }, Row.python]

end Sample

/-- The order of the rows shows in the order of the languages, and nowhere else. -/
theorem registerAll_in_any_order_sample :
    ∃ r₁ r₂, registerAll Sample.seeded Sample.newcomers = .ok r₁ ∧
      registerAll Sample.seeded Sample.newcomers.reverse = .ok r₂ ∧ Alike r₁ r₂ ∧
      r₁.languages = [.rust, .go, .python] ∧ r₂.languages = [.rust, .python, .go] ∧
      find? r₂.routes "rs" = some .rust ∧ find? r₂.routes "rlib" = some .rust := by
  have hlanguages : Sample.newcomers.Pairwise fun a b => a.language ≠ b.language := by
    decide +kernel
  obtain ⟨-, -, hregistered⟩ :=
    registerAll_in_any_order Sample.seeded hlanguages (List.reverse_perm Sample.newcomers)
  have hok : ((registerAll Sample.seeded Sample.newcomers).toOption.map Registry.languages) =
      some [.rust, .go, .python] := by decide +kernel
  have hok' : ((registerAll Sample.seeded Sample.newcomers.reverse).toOption.map
      Registry.languages) = some [.rust, .python, .go] := by decide +kernel
  cases h₁ : registerAll Sample.seeded Sample.newcomers with
  | error fault => rw [h₁] at hok; cases hok
  | ok r₁ =>
      obtain ⟨⟨r₂, h₂, halike⟩, -, -, hroutes, -⟩ := hregistered r₁ h₁
      rw [h₁] at hok
      rw [h₂] at hok'
      refine ⟨r₁, r₂, rfl, h₂, halike, Option.some.inj hok, Option.some.inj hok', ?_, ?_⟩
      · rw [← halike.routes, hroutes]
        exact .inl (by decide +kernel)
      · rw [← halike.routes, hroutes]
        exact .inr ⟨_, List.mem_cons_of_mem _ List.mem_cons_self, rfl, by decide +kernel⟩

end Registry
end Polyglot
