/-
What a registry becomes when the aliases of a configuration are added to it.

Aliases are added one after the other, and each meets the routes that those before it have left.
`Fits` says of all of them at once that none is turned down: none takes an extension away from its
owner, and no two want one extension for different languages.  Adding aliases succeeds just if they
fit (`addAliases_of_fits`, `addAliases_of_not_fits`).
-/
import Polyglot.Proofs.Registry.Coherence
import Polyglot.Registry.Build

namespace Polyglot
namespace Registry

/-- The routes that the entries of a configuration ask for.  Entries with unknown names ask for
none. -/
def wanted (entries : List (String × String)) : List (String × Language) :=
  entries.filterMap fun (ext, name) => (Language.ofName? name).map fun l => (Text.dropDot ext, l)

/-- What is said about the entries with unknown names. -/
def ignored (entries : List (String × String)) : List Notice :=
  entries.filterMap fun (ext, name) =>
    if (Language.ofName? name).isNone then some (.aliasIgnored ext name) else none

def Fits (routes : Table String Language) (aliases : List (String × Language)) : Prop :=
  (∀ a ∈ aliases, ∀ owner, Table.find? routes a.1 = some owner → owner = a.2) ∧
    aliases.Pairwise fun a b => a.1 = b.1 → a.2 = b.2

theorem wanted_cons_of_none {ext name : String} (h : Language.ofName? name = none)
    (rest : List (String × String)) : wanted ((ext, name) :: rest) = wanted rest := by
  simp only [wanted, List.filterMap_cons, h, Option.map_none]

theorem wanted_cons_of_some {ext name : String} {l : Language} (h : Language.ofName? name = some l)
    (rest : List (String × String)) :
    wanted ((ext, name) :: rest) = (Text.dropDot ext, l) :: wanted rest := by
  simp only [wanted, List.filterMap_cons, h, Option.map_some]

theorem ignored_cons_of_none {ext name : String} (h : Language.ofName? name = none)
    (rest : List (String × String)) :
    ignored ((ext, name) :: rest) = .aliasIgnored ext name :: ignored rest := by
  simp only [ignored, List.filterMap_cons, h, Option.isNone_none, if_true]

theorem ignored_cons_of_some {ext name : String} {l : Language} (h : Language.ofName? name = some l)
    (rest : List (String × String)) : ignored ((ext, name) :: rest) = ignored rest := by
  simp only [ignored, List.filterMap_cons, h, Option.isNone_some, Bool.false_eq_true, if_false]

theorem mem_ignored_iff {entries : List (String × String)} {ext name : String} :
    Notice.aliasIgnored ext name ∈ ignored entries ↔
      (ext, name) ∈ entries ∧ Language.ofName? name = none := by
  rw [ignored, List.mem_filterMap]
  constructor
  · rintro ⟨⟨ext', name'⟩, hmem, hsome⟩
    dsimp only at hsome
    split at hsome
    · rename_i hnone
      obtain ⟨rfl, rfl⟩ := Notice.aliasIgnored.inj (Option.some.inj hsome)
      exact ⟨hmem, Option.isNone_iff_eq_none.mp hnone⟩
    · cases hsome
  · rintro ⟨hmem, hnone⟩
    refine ⟨(ext, name), hmem, ?_⟩
    dsimp only
    rw [if_pos (Option.isNone_iff_eq_none.mpr hnone)]

theorem fits_nil (routes : Table String Language) : Fits routes [] :=
  ⟨fun _ ha => absurd ha List.not_mem_nil, List.Pairwise.nil⟩

/-- The first alias is checked against the routes as they are, the others against what it makes of
them. -/
theorem fits_cons {routes : Table String Language} {ext : String} {l : Language}
    {rest : List (String × Language)} :
    Fits routes ((ext, l) :: rest) ↔
      (∀ owner, Table.find? routes ext = some owner → owner = l) ∧
        Fits (Table.insert routes ext l) rest := by
  constructor
  · rintro ⟨hfree, hpair⟩
    obtain ⟨hhead, hrest⟩ := List.pairwise_cons.mp hpair
    refine ⟨hfree _ List.mem_cons_self, fun b hb owner hfind => ?_, hrest⟩
    rw [Table.find?_insert] at hfind
    by_cases heq : b.1 = ext
    · rw [if_pos (beq_iff_eq.mpr heq), Option.some.injEq] at hfind
      rw [← hfind]
      exact hhead b hb heq.symm
    · rw [if_neg (mt beq_iff_eq.mp heq)] at hfind
      exact hfree b (List.mem_cons_of_mem _ hb) owner hfind
  · rintro ⟨hfirst, hfree, hpair⟩
    have hsame : ∀ b ∈ rest, ext = b.1 → l = b.2 := by
      intro b hb heq
      exact hfree b hb l (heq ▸ Table.find?_insert_self routes ext l)
    refine ⟨fun b hb owner hfind => ?_, List.pairwise_cons.mpr ⟨hsame, hpair⟩⟩
    rcases List.mem_cons.mp hb with rfl | hb
    · exact hfirst owner hfind
    · by_cases heq : ext = b.1
      · rw [hfirst owner (heq ▸ hfind), hsame b hb heq]
      · apply hfree b hb owner
        rw [Table.find?_insert, if_neg (mt beq_iff_eq.mp (Ne.symm heq))]
        exact hfind

/-- Aliases that fit leave every extension with its owner. -/
theorem Fits.find?_update {routes : Table String Language} {aliases : List (String × Language)}
    (h : Fits routes aliases) {e : String} {l : Language} (hfind : Table.find? routes e = some l) :
    Table.find? (Table.update routes aliases) e = some l := by
  induction aliases generalizing routes with
  | nil => exact hfind
  | cons a rest ih =>
      obtain ⟨hfree, hrest⟩ := fits_cons.mp h
      apply ih hrest
      rw [Table.find?_insert]
      by_cases heq : e = a.1
      · rw [if_pos (beq_iff_eq.mpr heq), hfree l (heq ▸ hfind)]
      · rw [if_neg (mt beq_iff_eq.mp heq)]
        exact hfind

/-- Aliases that fit are routed as they ask. -/
theorem Fits.find?_update_of_mem {routes : Table String Language}
    {aliases : List (String × Language)} (h : Fits routes aliases) {e : String} {l : Language}
    (hmem : (e, l) ∈ aliases) : Table.find? (Table.update routes aliases) e = some l := by
  induction aliases generalizing routes with
  | nil => exact absurd hmem List.not_mem_nil
  | cons a rest ih =>
      obtain ⟨-, hrest⟩ := fits_cons.mp h
      rcases List.mem_cons.mp hmem with rfl | hmem
      · exact hrest.find?_update (Table.find?_insert_self routes e l)
      · exact ih hrest hmem

/-- Where aliases fit, an extension belongs to its owner from before, or to the language that an alias
routes it to. -/
theorem Fits.find?_update_eq_some_iff {routes : Table String Language}
    {aliases : List (String × Language)} (h : Fits routes aliases) {e : String} {l : Language} :
    Table.find? (Table.update routes aliases) e = some l ↔
      Table.find? routes e = some l ∨ (e, l) ∈ aliases := by
  constructor
  · exact fun hfind => (Table.mem_or_find?_of_update hfind).symm
  · rintro (howner | hmem)
    · exact h.find?_update howner
    · exact h.find?_update_of_mem hmem

/-! ## One alias -/

theorem addAlias_of_free {r : Registry} {ext : String} {l : Language}
    (present : r.contains l = true)
    (free : ∀ owner, Table.find? r.routes (Text.dropDot ext) = some owner → owner = l) :
    r.addAlias ext l =
      .ok { r with routes := Table.insert r.routes (Text.dropDot ext) l } := by
  obtain ⟨row, hrow⟩ := find?_of_contains present
  simp only [addAlias, Registry.row, hrow, bind, Except.bind]
  cases hfind : Table.find? r.routes (Text.dropDot ext) with
  | none => rfl
  | some owner =>
      simp only [free owner hfind, if_true]
      rfl

theorem addAlias_of_taken {r : Registry} {ext : String} {l : Language}
    (taken : ¬∀ owner, Table.find? r.routes (Text.dropDot ext) = some owner → owner = l) :
    ∃ fault, r.addAlias ext l = .error fault := by
  rcases addAlias_cases r ext l with herror | ⟨r', -, heffect⟩
  · exact herror
  · cases heffect with
    | addAlias _ _ _ free => exact absurd free taken

/-! ## All aliases of a configuration -/

theorem addAliases_cons_of_none {ext name : String} (h : Language.ofName? name = none)
    (rest : List (String × String)) (r : Registry) :
    addAliases ((ext, name) :: rest) r =
      { addAliases rest r with
        notices := .aliasIgnored ext name :: (addAliases rest r).notices } := by
  simp only [addAliases, h, bind, Action.bind, Action.say, List.singleton_append]

theorem addAliases_cons_of_some {ext name : String} {l : Language}
    (h : Language.ofName? name = some l) (rest : List (String × String)) (r : Registry) :
    addAliases ((ext, name) :: rest) r =
      match r.addAlias ext l with
      | .error fault => { result := .error (.registry fault), state := r, notices := [] }
      | .ok r' => addAliases rest r' := by
  simp only [addAliases, h, bind, Action.bind, Action.state, Action.ofExcept]
  cases r.addAlias ext l <;> rfl

theorem addAliases_of_fits {entries : List (String × String)} {r : Registry}
    (hall : ∀ l, r.contains l = true) (h : Fits r.routes (wanted entries)) :
    addAliases entries r =
      { result := .ok (), state := { r with routes := Table.update r.routes (wanted entries) },
        notices := ignored entries } := by
  induction entries generalizing r with
  | nil => rfl
  | cons entry rest ih =>
      obtain ⟨ext, name⟩ := entry
      cases hname : Language.ofName? name with
      | none =>
          rw [wanted_cons_of_none hname] at h ⊢
          rw [addAliases_cons_of_none hname, ih hall h, ignored_cons_of_none hname]
      | some l =>
          rw [wanted_cons_of_some hname] at h ⊢
          obtain ⟨hfree, hrest⟩ := fits_cons.mp h
          rw [addAliases_cons_of_some hname, addAlias_of_free (hall l) hfree,
            ignored_cons_of_some hname]
          exact ih hall hrest

theorem addAliases_of_not_fits {entries : List (String × String)} {r : Registry}
    (hall : ∀ l, r.contains l = true) (h : ¬Fits r.routes (wanted entries)) :
    ∃ fault, (addAliases entries r).result = .error (.registry fault) := by
  induction entries generalizing r with
  | nil => exact absurd (fits_nil _) h
  | cons entry rest ih =>
      obtain ⟨ext, name⟩ := entry
      cases hname : Language.ofName? name with
      | none =>
          rw [wanted_cons_of_none hname] at h
          rw [addAliases_cons_of_none hname]
          exact ih hall h
      | some l =>
          rw [wanted_cons_of_some hname, fits_cons, not_and] at h
          rw [addAliases_cons_of_some hname]
          by_cases hfree : ∀ owner,
              Table.find? r.routes (Text.dropDot ext) = some owner → owner = l
          · rw [addAlias_of_free (hall l) hfree]
            exact ih hall (h hfree)
          · obtain ⟨fault, hfault⟩ := addAlias_of_taken hfree
            rw [hfault]
            exact ⟨fault, rfl⟩

/-! ## The built-in languages -/

theorem contains_builtin (l : Language) : builtin.contains l = true := by
  cases l <;> rfl

theorem routes_builtin : builtin.routes = Config.builtinRoutes := by
  decide +kernel

/-- Aliases can be added to the built-in registry just if they fit. -/
theorem build_result_iff {config : Config} :
    (build config).result = .ok () ↔ Fits builtin.routes (wanted config.extensions) := by
  by_cases hfits : Fits builtin.routes (wanted config.extensions)
  · rw [build, addAliases_of_fits contains_builtin hfits]
    exact iff_of_true rfl hfits
  · obtain ⟨fault, hfault⟩ := addAliases_of_not_fits contains_builtin hfits
    rw [build, hfault]
    exact iff_of_false (fun hok => by cases hok) hfits

end Registry
end Polyglot
