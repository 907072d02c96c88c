/-
The layers of a configuration: the environment, the user's file, the project's file.

Loading merges the data of the layers and takes the aliases from the result.  A layer that holds
tables, or nothing, on the way to its aliases has them merged into those below it; another one hides
them (`aliases_merge`).
-/
import Polyglot.Proofs.Yaml.Keys
import Polyglot.Settings

namespace Polyglot

open Value (WellKeyed)

namespace Config

/-- The table under a name, and nothing where there is none. -/
def tableAt (data : Section) (name : String) : Section :=
  match Table.find? data (textKey name) with
  | some (.map entries) => entries
  | _ => []

/-- What stands under a name, if anything does, is a table. -/
def isTableAt (data : Section) (name : String) : Bool :=
  match Table.find? data (textKey name) with
  | none => true
  | some (.map _) => true
  | some _ => false

/-- Something else than a table is as good as an empty one. -/
theorem tableAt_of_not_isTableAt {data : Section} {name : String}
    (h : isTableAt data name = false) : tableAt data name = [] := by
  rw [isTableAt] at h
  rw [tableAt]
  cases hfind : Table.find? data (textKey name) with
  | none => rfl
  | some v =>
      rw [hfind] at h
      cases v with
      | map entries => cases h
      | scalar | list | set | pair | again => rfl

/-- The table of extensions in the data of a layer. -/
def aliases (data : Section) : Section := tableAt (tableAt data "languages") "extensions"

/-- The data holds tables, or nothing, on the way to its table of extensions. -/
def isTabled (data : Section) : Bool :=
  isTableAt data "languages" && isTableAt (tableAt data "languages") "extensions"

theorem textKey_beq {a b : String} : (textKey a == textKey b) = true ↔ a = b := by
  rw [Scalar.beq_iff]
  exact Scalar.Key.text.injEq a b ▸ Iff.rfl

theorem textKey_beq_textKey (a b : String) : (textKey a == textKey b) = (a == b) := by
  rw [Bool.eq_iff_iff, textKey_beq, beq_iff_eq]

/-- The data of an alias. -/
def aliasEntry (entry : String × String) : Scalar × Value :=
  (textKey entry.1, .scalar (.text entry.2))

/-- A table of texts names no key twice if its texts are distinct. -/
theorem distinct_map_aliasEntry {t : Table String String} (h : Table.Distinct t) :
    Table.Distinct (t.map aliasEntry) := by
  rw [Table.Distinct, Table.keys, List.pairwise_map] at h
  rw [Table.Distinct, Table.keys, List.map_map, List.pairwise_map]
  exact h.imp fun {a b} hne => (textKey_beq_textKey a.1 b.1).trans hne

theorem sectionOf_fst (data : Section) (name : String) :
    (sectionOf data name).1 = tableAt data name := by
  rw [sectionOf, tableAt]
  cases Table.find? data (textKey name) with
  | none => rfl
  | some v =>
      cases v with
      | map entries => rfl
      | scalar | list | set | pair | again => simp only; split <;> rfl

theorem extensionsOf_fst (languages : Section) :
    (extensionsOf languages).1 = tableAt languages "extensions" := by
  rw [extensionsOf, tableAt]
  cases Table.find? languages (textKey "extensions") with
  | none => rfl
  | some v =>
      cases v with
      | map entries => rfl
      | scalar | list | set | pair | again => simp only; split <;> rfl

/-- The aliases of a configuration are read off the table of extensions alone. -/
theorem extensions_ofSection (data : Section) :
    (ofSection data).1.extensions =
      Table.ofList ((aliases data).map fun (k, v) => (Text.dropDots k.plain, v.plain)) := by
  rw [aliases, ← extensionsOf_fst, ← sectionOf_fst]
  rfl

/-! ## Tables in merged data -/

theorem wellKeyed_tableAt {data : Section} (h : WellKeyed (.map data)) (name : String) :
    WellKeyed (.map (tableAt data name)) := by
  rw [tableAt]
  split
  · rename_i entries hfind
    exact h.of_find? hfind
  · exact .map Table.distinct_nil fun e he => absurd he List.not_mem_nil

theorem distinct_aliases {data : Section} (h : WellKeyed (.map data)) :
    Table.Distinct (aliases data) :=
  (wellKeyed_tableAt (wellKeyed_tableAt h "languages") "extensions").distinct

/-- A table is merged into the table below it, and anything else puts an end to that table. -/
theorem tableAt_merge (base : Section) {upper : Section} (hupper : WellKeyed (.map upper))
    (name : String) :
    tableAt (Value.merge base upper) name =
      if isTableAt upper name then Value.merge (tableAt base name) (tableAt upper name)
      else [] := by
  have hdistinct := (wellKeyed_tableAt hupper name).distinct
  have hmerge := Value.find?_merge base hupper.distinct (textKey name)
  cases hfu : Table.find? upper (textKey name) with
  | none => simp only [tableAt, isTableAt, hmerge, hfu, if_true, Value.merge]
  | some v =>
      simp only [tableAt, isTableAt, hmerge, hfu] at hdistinct ⊢
      cases v with
      | map entries =>
          cases hfb : Table.find? base (textKey name) with
          | none => exact (Value.merge_nil hdistinct).symm
          | some v' =>
              cases v' with
              | map entries' => simp only [Value.override, if_true]
              | scalar | list | set | pair | again => exact (Value.merge_nil hdistinct).symm
      | scalar | list | set | pair | again => rfl

theorem aliases_merge (base : Section) {upper : Section} (hupper : WellKeyed (.map upper)) :
    aliases (Value.merge base upper) =
      if isTabled upper then Value.merge (aliases base) (aliases upper) else [] := by
  rw [aliases, isTabled, tableAt_merge base hupper]
  cases isTableAt upper "languages" with
  | false => rfl
  | true => exact tableAt_merge _ (wellKeyed_tableAt hupper "languages") "extensions"

end Config

/-! ## The three layers -/

namespace Environment

theorem aliases_data (e : Environment) :
    Config.aliases e.data =
      (match e.extensions.filter (!·.isEmpty) with
      | some value => (Config.parseExtensions value).map fun (ext, name) =>
          (Config.textKey ext, Value.scalar (.text name))
      | none => []) := by
  rw [data]
  cases e.extensions.filter (!·.isEmpty) <;> cases e.names.filter (!·.isEmpty) <;> rfl

theorem distinct_aliases (e : Environment) : Table.Distinct (Config.aliases e.data) := by
  rw [aliases_data]
  cases e.extensions.filter (!·.isEmpty) with
  | none => exact Table.distinct_nil
  | some value => exact Config.distinct_map_aliasEntry (Table.distinct_ofList _)

end Environment

namespace File

/-- The data that a file gives to its layer. -/
def dataOf (layer : Layer) (f : File) : Section :=
  match f.data layer with
  | .ok (data, _) => data
  | .error _ => []

/-- The file can be read, and its data holds tables, or nothing, on the way to its extensions. -/
def isTabled (layer : Layer) (f : File) : Bool :=
  match f.data layer with
  | .ok (data, _) => Config.isTabled data
  | .error _ => false

theorem wellKeyed_dataOf (layer : Layer) (f : File) : WellKeyed (.map (f.dataOf layer)) := by
  have hnil : WellKeyed (.map []) :=
    .map Table.distinct_nil fun e he => absurd he List.not_mem_nil
  cases f with
  | absent | blocked | directory | undecodable | «sealed» | sink | hidden => exact hnil
  | text s =>
      rw [dataOf, data]
      cases hread : Yaml.read s with
      | error fault => cases fault <;> exact hnil
      | ok v =>
          have hkeyed := Yaml.wellKeyed_read hread
          cases v with
          | map entries => exact hkeyed
          | scalar v => cases hv : (Value.scalar v).isVoid <;> simp only [hv] <;> exact hnil
          | list items => cases hv : (Value.list items).isVoid <;> simp only [hv] <;> exact hnil
          | set items => cases hv : (Value.set items).isVoid <;> simp only [hv] <;> exact hnil
          | pair | again => exact hnil

theorem data_of_isTabled {layer : Layer} {f : File} (h : f.isTabled layer = true) :
    (∃ notices, f.data layer = .ok (f.dataOf layer, notices)) ∧
      Config.isTabled (f.dataOf layer) = true := by
  rw [isTabled] at h
  rw [dataOf]
  cases hdata : f.data layer with
  | error fault => rw [hdata] at h; cases h
  | ok found =>
      rw [hdata] at h
      exact ⟨⟨found.2, rfl⟩, h⟩

end File

/-- Layers merged into one table; the highest stands first in the list. -/
def Layers.merged : List Section → Section
  | [] => []
  | highest :: lower => Value.merge (merged lower) highest

namespace Settings

/-- The tables of extensions of the layers, that of the highest first. -/
def aliasLayers (s : Settings) : List Section :=
  [Config.aliases (s.store.project.dataOf .project), Config.aliases (s.store.user.dataOf .user),
   Config.aliases s.environment.data]

theorem distinct_aliasLayers (s : Settings) : ∀ layer ∈ s.aliasLayers, Table.Distinct layer := by
  intro layer hlayer
  simp only [aliasLayers, List.mem_cons, List.not_mem_nil, or_false] at hlayer
  rcases hlayer with rfl | rfl | rfl
  · exact Config.distinct_aliases (s.store.project.wellKeyed_dataOf .project)
  · exact Config.distinct_aliases (s.store.user.wellKeyed_dataOf .user)
  · exact s.environment.distinct_aliases

/-- What is loaded takes its aliases from the merged tables of the layers. -/
theorem load_extensions {s : Settings} (hnew : s.loaded = none)
    (hu : s.store.user.isTabled .user = true) (hp : s.store.project.isTabled .project = true) :
    ∃ config, (load s).result = .ok config ∧
      config.extensions = Table.ofList ((Layers.merged s.aliasLayers).map
        fun (k, v) => (Text.dropDots k.plain, v.plain)) := by
  obtain ⟨⟨fromUser, hdu⟩, htu⟩ := File.data_of_isTabled hu
  obtain ⟨⟨fromProject, hdp⟩, htp⟩ := File.data_of_isTabled hp
  refine ⟨(Config.ofSection (Value.merge (Value.merge s.environment.data
    (s.store.user.dataOf .user)) (s.store.project.dataOf .project))).1, ?_, ?_⟩
  · simp only [load, bind, Action.bind, Action.state, hnew, current, Store.load, hdu, hdp]
    rfl
  · rw [Config.extensions_ofSection,
      Config.aliases_merge _ (s.store.project.wellKeyed_dataOf .project), if_pos htp,
      Config.aliases_merge _ (s.store.user.wellKeyed_dataOf .user), if_pos htu, aliasLayers,
      Layers.merged, Layers.merged, Layers.merged, Layers.merged,
      Value.merge_nil s.environment.distinct_aliases]

end Settings
end Polyglot
