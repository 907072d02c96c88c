/-
Which layer an alias comes from.

Several keys can read as one extension: dots in front do not count, and keys of any kind are taken
as text.  By rank, an extension stands for what the highest layer that has a key for it says, and
within a layer the last such key decides (`ranked`).  Layers are merged before their keys are read,
and then the key decides that was the last to appear for the first time, from the lowest layer up;
its value is that of the highest layer with that very key (`prevailing`).

The aliases of a loaded configuration are the prevailing ones.  They are those by rank where the
layers spell the extension alike, and need not be where they do not: a layer below the highest can
bring the last spelling.
-/
import Polyglot.Proofs.Settings.Layers

namespace Polyglot

open Table (find? keys contains Distinct)

namespace Layers

/-- The key, as a text and without dots in front, is the extension. -/
def reads (e : String) (k : Scalar) : Bool := e == Text.dropDots k.plain

/-- What the last entry for an extension says. -/
def lastOf (e : String) (layer : Section) : Option Value :=
  ((layer.filter fun entry => reads e entry.1).getLast?).map Prod.snd

/-- What an extension stands for by rank; the highest layer stands first. -/
def ranked (e : String) : List Section → Option Value
  | [] => none
  | highest :: lower => (lastOf e highest).or (ranked e lower)

/-- The keys of all layers, in the order in which they appear from the lowest layer up. -/
def spellings : List Section → List Scalar
  | [] => []
  | highest :: lower =>
      spellings lower ++ (keys highest).filter fun k => !(spellings lower).any (k == ·)

/-- What the layers say under one key: the highest wins, and a table is merged into a table. -/
def under (k : Scalar) : List Section → Option Value
  | [] => none
  | highest :: lower =>
      match find? highest k with
      | some v => some (v.override (under k lower))
      | none => under k lower

/-- What an extension stands for once the layers are merged. -/
def prevailing (e : String) (layers : List Section) : Option Value :=
  (((spellings layers).filter (reads e)).getLast?).bind fun k => under k layers

/-- All layers write an extension as one and the same key, and hold no table under it. -/
def SpeltAlike (e : String) (layers : List Section) : Prop :=
  ∃ k, ∀ layer ∈ layers, (∀ k' ∈ keys layer, reads e k' = (k' == k)) ∧
    (find? layer k).map Value.kind ≠ some .map

/-! ## Merged layers -/

theorem find?_merged {layers : List Section} (h : ∀ layer ∈ layers, Distinct layer) (k : Scalar) :
    find? (merged layers) k = under k layers := by
  induction layers with
  | nil => rfl
  | cons highest lower ih =>
      obtain ⟨hhighest, hlower⟩ := List.forall_mem_cons.mp h
      rw [merged, Value.find?_merge _ hhighest, ih hlower]
      rfl

theorem keys_merged {layers : List Section} (h : ∀ layer ∈ layers, Distinct layer) :
    keys (merged layers) = spellings layers := by
  induction layers with
  | nil => rfl
  | cons highest lower ih =>
      obtain ⟨hhighest, hlower⟩ := List.forall_mem_cons.mp h
      rw [merged, spellings, Value.keys_merge _ hhighest, ih hlower]
      refine congrArg (spellings lower ++ ·) (List.filter_congr fun k _ => ?_)
      rw [Table.contains_eq_any, ih hlower]

theorem distinct_merged (layers : List Section) : Distinct (merged layers) := by
  induction layers with
  | nil => exact Table.distinct_nil
  | cons highest lower ih => exact Value.distinct_merge ih highest

theorem mem_spellings {layers : List Section} {k : Scalar} (h : k ∈ spellings layers) :
    ∃ layer ∈ layers, k ∈ keys layer := by
  induction layers with
  | nil => cases h
  | cons highest lower ih =>
      rw [spellings, List.mem_append] at h
      rcases h with hlower | hhighest
      · obtain ⟨layer, hlayer, hk⟩ := ih hlower
        exact ⟨layer, List.mem_cons_of_mem _ hlayer, hk⟩
      · exact ⟨highest, List.mem_cons_self, (List.mem_filter.mp hhighest).1⟩

/-! ## The last entry for an extension -/

/-- Names without dots are read off a table entry by entry, and the last one stays. -/
theorem find?_ofList_map (layer : Section) (e : String) :
    find? (Table.ofList (layer.map fun (k, v) => (Text.dropDots k.plain, v.plain))) e =
      (lastOf e layer).map Value.plain := by
  rw [Table.find?_ofList, List.filter_map, List.getLast?_map, lastOf, Option.map_map,
    Option.map_map]
  rfl

theorem lastOf_eq_bind {layer : Section} (h : Distinct layer) (e : String) :
    lastOf e layer = (((keys layer).filter (reads e)).getLast?).bind (find? layer) := by
  have hkeys : (keys layer).filter (reads e) =
      keys (layer.filter fun entry => reads e entry.1) := List.filter_map
  rw [lastOf, hkeys, keys, List.getLast?_map]
  cases hlast : (layer.filter fun entry => reads e entry.1).getLast? with
  | none => rfl
  | some entry =>
      have hmem := (List.mem_filter.mp (List.mem_of_getLast? hlast)).1
      exact (Table.find?_of_mem h hmem).symm

/-- Where one key reads as the extension, the last entry for it is the one under that key. -/
theorem lastOf_eq_find? {layer : Section} (h : Distinct layer) {e : String} {k : Scalar}
    (hk : ∀ k' ∈ keys layer, reads e k' = (k' == k)) : lastOf e layer = find? layer k := by
  rw [lastOf_eq_bind h, List.filter_congr hk]
  cases hlast : ((keys layer).filter (· == k)).getLast? with
  | none =>
      rw [List.getLast?_eq_none_iff, List.filter_eq_nil_iff] at hlast
      refine (Table.find?_eq_none_iff.mpr fun k' hk' => ?_).symm
      rw [BEq.comm]
      exact Bool.eq_false_iff.mpr (hlast k' hk')
  | some k' =>
      have hsame := (List.mem_filter.mp (List.mem_of_getLast? hlast)).2
      exact Table.find?_congr hsame

theorem lastOf_merged {layers : List Section} (h : ∀ layer ∈ layers, Distinct layer) (e : String) :
    lastOf e (merged layers) = prevailing e layers := by
  rw [lastOf_eq_bind (distinct_merged layers), keys_merged h, prevailing]
  exact congrArg _ (funext (find?_merged h))

/-! ## Layers that agree on the spelling -/

theorem override_of_kind {v : Value} (h : v.kind ≠ .map) (old : Option Value) :
    v.override old = v := by
  cases v with
  | map entries => exact absurd rfl h
  | scalar | list | set | pair | again => rfl

theorem ranked_eq_under {layers : List Section} (h : ∀ layer ∈ layers, Distinct layer) {e : String}
    {k : Scalar} (hk : ∀ layer ∈ layers, (∀ k' ∈ keys layer, reads e k' = (k' == k)) ∧
      (find? layer k).map Value.kind ≠ some .map) :
    ranked e layers = under k layers := by
  induction layers with
  | nil => rfl
  | cons highest lower ih =>
      obtain ⟨hhighest, hlower⟩ := List.forall_mem_cons.mp h
      obtain ⟨⟨hspelt, hmap⟩, hrest⟩ := List.forall_mem_cons.mp hk
      rw [ranked, under, lastOf_eq_find? hhighest hspelt, ih hlower hrest]
      cases hfind : find? highest k with
      | none => rfl
      | some v =>
          have hkind : v.kind ≠ .map := fun heq => hmap (by rw [hfind, Option.map_some, heq])
          show some v = some (v.override _)
          rw [override_of_kind hkind]

theorem prevailing_eq_ranked {layers : List Section} (h : ∀ layer ∈ layers, Distinct layer)
    {e : String} (halike : SpeltAlike e layers) : prevailing e layers = ranked e layers := by
  obtain ⟨k, hk⟩ := halike
  have hspelt : ∀ k' ∈ keys (merged layers), reads e k' = (k' == k) := by
    intro k' hk'
    rw [keys_merged h] at hk'
    obtain ⟨layer, hlayer, hmem⟩ := mem_spellings hk'
    exact (hk layer hlayer).1 k' hmem
  rw [← lastOf_merged h, lastOf_eq_find? (distinct_merged layers) hspelt, find?_merged h,
    ranked_eq_under h hk]

end Layers

namespace Settings

open Layers (prevailing ranked SpeltAlike)

/-- Loading gives every extension its prevailing alias.  That is the alias by rank just where the
two are one text, and so wherever the layers spell the extension alike. -/
theorem loaded_alias_prevails {s : Settings} (hnew : s.loaded = none)
    (hu : s.store.user.isTabled .user = true) (hp : s.store.project.isTabled .project = true)
    (e : String) :
    ∃ config, (load s).result = .ok config ∧
      find? config.extensions e = (prevailing e s.aliasLayers).map Value.plain ∧
      (find? config.extensions e = (ranked e s.aliasLayers).map Value.plain ↔
        (prevailing e s.aliasLayers).map Value.plain =
          (ranked e s.aliasLayers).map Value.plain) ∧
      (SpeltAlike e s.aliasLayers →
        find? config.extensions e = (ranked e s.aliasLayers).map Value.plain) := by
  obtain ⟨config, hload, hextensions⟩ := load_extensions hnew hu hp
  have halias : find? config.extensions e = (prevailing e s.aliasLayers).map Value.plain := by
    rw [hextensions, Layers.find?_ofList_map, Layers.lastOf_merged s.distinct_aliasLayers]
  refine ⟨config, hload, halias, by rw [halias], fun halike => ?_⟩
  rw [halias, Layers.prevailing_eq_ranked s.distinct_aliasLayers halike]

/-- Settings with one extension in each of the three layers, written as given. -/
def threeLayers (environment user project : String) : Settings where
  environment := { extensions := some (environment ++ "=python") }
  store :=
    { user := .text ("languages:\n  extensions:\n    " ++ user ++ ": rust\n"),
      project := .text ("languages:\n  extensions:\n    " ++ project ++ ": go\n") }

theorem loaded_alias_prevails_alike :
    SpeltAlike "pyi" (threeLayers "pyi" "pyi" "pyi").aliasLayers ∧
      ∃ config, (load (threeLayers "pyi" "pyi" "pyi")).result = .ok config ∧
        find? config.extensions "pyi" = some "go" := by
  have halike : SpeltAlike "pyi" (threeLayers "pyi" "pyi" "pyi").aliasLayers :=
    ⟨.text "pyi", by decide +kernel⟩
  obtain ⟨config, hload, -, -, hranked⟩ := loaded_alias_prevails
    (s := threeLayers "pyi" "pyi" "pyi") rfl (by decide +kernel) (by decide +kernel) "pyi"
  refine ⟨halike, config, hload, (hranked halike).trans ?_⟩
  decide +kernel

/-- A spelling that only the user's file has comes after that of the environment, and so it outdoes
the project's file, which spells the extension as the environment does. -/
theorem user_spelling_outranks_project :
    ((load (threeLayers "pyi" ".pyi" "pyi")).result.toOption.bind fun config =>
        find? config.extensions "pyi") = some "rust" ∧
      (ranked "pyi" (threeLayers "pyi" ".pyi" "pyi").aliasLayers).map Value.plain = some "go" := by
  decide +kernel

end Settings
end Polyglot
