/-
A configuration is valid just if a registry can be built from it with all its aliases.

Validity looks at each alias by itself, against the table of built-in extensions.  A registry takes
the aliases one after the other, drops a dot in front of each, and turns one down that another alias
stands in the way of.  The two agree on configurations that are normal: their extensions are
distinct and have no dots in front, so no alias meets another.  What is read from data is normal, and
every change keeps it so, whether the change stands, is refused or cannot be saved (`HoldsNormal`).
-/
import Polyglot.Proofs.Registry.Aliases
import Polyglot.Proofs.Settings.Durable

namespace Polyglot

open Table (find? keys Distinct)

namespace Config

/-! ## Validity, alias by alias -/

/-- An alias asks for a known language and takes no built-in extension away. -/
def IsSound (ext name : String) : Prop :=
  ∃ l, Language.ofName? name = some l ∧ ∀ owner, find? builtinRoutes ext = some owner → owner = l

theorem entryProblem?_eq_none_iff {ext name : String} :
    entryProblem? ext name = none ↔ IsSound ext name := by
  rw [entryProblem?, IsSound]
  cases Language.ofName? name with
  | none => simp
  | some l =>
      cases find? builtinRoutes ext with
      | none => simp
      | some owner =>
          by_cases heq : owner = l
          · simp [heq]
          · simp [heq]

theorem extensionsProblem?_eq_none_iff {c : Config} :
    c.extensionsProblem? = none ↔ ∀ e ∈ c.extensions, IsSound e.1 e.2 := by
  rw [extensionsProblem?, List.findSome?_eq_none_iff]
  exact forall₂_congr fun _ _ => entryProblem?_eq_none_iff

/-! ## Aliases of a normal configuration -/

section Normal

variable {c : Config}

/-- No dot is dropped from the extensions of a normal configuration. -/
theorem IsNormal.wanted_eq (h : c.IsNormal) :
    Registry.wanted c.extensions =
      c.extensions.filterMap fun (ext, name) => (Language.ofName? name).map fun l => (ext, l) := by
  refine List.filterMap_congr fun e he => ?_
  have hbare : Text.dropDot e.1 = e.1 := Text.dropDot_of_isBare (h.bare e.1 (List.mem_map_of_mem he))
  dsimp only
  rw [hbare]

theorem IsNormal.mem_wanted_iff (h : c.IsNormal) {ext : String} {l : Language} :
    (ext, l) ∈ Registry.wanted c.extensions ↔
      ∃ name, (ext, name) ∈ c.extensions ∧ Language.ofName? name = some l := by
  rw [h.wanted_eq, List.mem_filterMap]
  constructor
  · rintro ⟨⟨ext', name⟩, hmem, hmap⟩
    obtain ⟨l', hname, hpair⟩ := Option.map_eq_some_iff.mp hmap
    obtain ⟨rfl, rfl⟩ := Prod.mk.inj hpair
    exact ⟨name, hmem, hname⟩
  · rintro ⟨name, hmem, hname⟩
    exact ⟨(ext, name), hmem, Option.map_eq_some_iff.mpr ⟨l, hname, rfl⟩⟩

/-- The extensions of a normal configuration are distinct, so its aliases fit as soon as each of
them fits by itself. -/
theorem IsNormal.fits_iff (h : c.IsNormal) (routes : Table String Language) :
    Registry.Fits routes (Registry.wanted c.extensions) ↔
      ∀ ext l, (ext, l) ∈ Registry.wanted c.extensions →
        ∀ owner, find? routes ext = some owner → owner = l := by
  have hdistinct : c.extensions.Pairwise fun a b => a.1 ≠ b.1 :=
    (List.pairwise_map.mp h.distinct).imp fun hne => ne_of_beq_false hne
  have happart : (Registry.wanted c.extensions).Pairwise fun a b => a.1 ≠ b.1 := by
    rw [h.wanted_eq]
    refine hdistinct.filterMap _ fun a b hne a' ha b' hb => ?_
    obtain ⟨_, -, rfl⟩ := Option.map_eq_some_iff.mp ha
    obtain ⟨_, -, rfl⟩ := Option.map_eq_some_iff.mp hb
    exact hne
  constructor
  · intro hfits ext l hmem
    exact hfits.1 (ext, l) hmem
  · intro hfree
    exact ⟨fun a ha => hfree a.1 a.2 ha, happart.imp fun hne heq => absurd heq hne⟩

/-- Every alias of a normal configuration is sound just if the registry takes all of them. -/
theorem IsNormal.valid_iff_built (h : c.IsNormal) :
    c.extensionsProblem? = none ↔
      (Registry.build c).result = .ok () ∧
        ∀ ext name, Notice.aliasIgnored ext name ∉ (Registry.build c).notices := by
  rw [extensionsProblem?_eq_none_iff]
  constructor
  · intro hsound
    have hfits : Registry.Fits Registry.builtin.routes (Registry.wanted c.extensions) := by
      rw [h.fits_iff, Registry.routes_builtin]
      intro ext l hmem
      obtain ⟨name, hentry, hname⟩ := h.mem_wanted_iff.mp hmem
      obtain ⟨l', hname', hfree⟩ := hsound (ext, name) hentry
      rw [hname, Option.some.injEq] at hname'
      exact hname' ▸ hfree
    refine ⟨Registry.build_result_iff.mpr hfits, ?_⟩
    rw [Registry.build, Registry.addAliases_of_fits Registry.contains_builtin hfits]
    intro ext name hignored
    obtain ⟨hmem, hnone⟩ := Registry.mem_ignored_iff.mp hignored
    obtain ⟨l, hname, -⟩ := hsound (ext, name) hmem
    rw [hnone] at hname
    cases hname
  · rintro ⟨hok, hsilent⟩ ⟨ext, name⟩ hmem
    have hfits := Registry.build_result_iff.mp hok
    rw [Registry.build, Registry.addAliases_of_fits Registry.contains_builtin hfits] at hsilent
    have hknown : Language.ofName? name ≠ none := fun hnone =>
      hsilent ext name (Registry.mem_ignored_iff.mpr ⟨hmem, hnone⟩)
    obtain ⟨l, hname⟩ := Option.ne_none_iff_exists'.mp hknown
    refine ⟨l, hname, ?_⟩
    rw [h.fits_iff, Registry.routes_builtin] at hfits
    exact hfits ext l (h.mem_wanted_iff.mpr ⟨name, hmem, hname⟩)

/-- A registry that was built from a valid configuration routes every extension as the alias
says. -/
theorem IsNormal.routed_of_valid (h : c.IsNormal) (hvalid : c.extensionsProblem? = none)
    {ext name : String} (hmem : (ext, name) ∈ c.extensions) :
    ∃ l, Language.ofName? name = some l ∧
      find? (Registry.build c).state.routes ext = some l := by
  obtain ⟨l, hname, -⟩ := extensionsProblem?_eq_none_iff.mp hvalid _ hmem
  have hfits := Registry.build_result_iff.mp (h.valid_iff_built.mp hvalid).1
  refine ⟨l, hname, ?_⟩
  rw [Registry.build, Registry.addAliases_of_fits Registry.contains_builtin hfits]
  exact hfits.find?_update_of_mem (h.mem_wanted_iff.mpr ⟨name, hmem, hname⟩)

end Normal

/-! ## Normal configurations under change -/

theorem IsNormal.erase {c : Config} (h : c.IsNormal) (ext : String) :
    IsNormal { c with extensions := c.extensions.erase ext } where
  distinct := h.distinct.filter _
  bare := by
    intro ext' hext'
    rw [Table.keys_erase] at hext'
    exact h.bare ext' (List.mem_filter.mp hext').1
  named := h.named

/-- A change leaves a configuration normal, also one that is refused. -/
theorem IsNormal.change {c : Config} (h : c.IsNormal) (key value : String) :
    (Settings.change c key value).config.IsNormal := by
  cases hrefusal : (Settings.change c key value).refusal with
  | none => exact isNormal_change h hrefusal
  | some refusal =>
      rw [Settings.change_refused hrefusal]
      cases Settings.settingOf? key with
      | none => exact h
      | some setting =>
          cases setting with
          | extension ext => exact h.erase _
          | names => exact h

end Config

namespace Settings

/-- A request to change a setting. -/
structure SetCall where
  key : String
  value : String
  layer : Layer

/-- The settings after a request, also where it is not met. -/
def SetCall.after (s : Settings) (call : SetCall) : Settings :=
  (set call.key call.value call.layer s).state

def setAll (s : Settings) (calls : List SetCall) : Settings := calls.foldl SetCall.after s

theorem SetCall.loaded_after {s : Settings} {c : Config} (h : (load s).result = .ok c)
    (call : SetCall) : (call.after s).loaded = some (change c call.key call.value).config := by
  rw [SetCall.after, set_of_ok h]
  dsimp only
  split
  · rfl
  · split <;> rfl

/-- The configuration in force, if there is one, is normal. -/
def HoldsNormal (s : Settings) : Prop := ∀ c, s.loaded = some c → c.IsNormal

/-- What is loaded is in force already or is read from data, so it is normal either way. -/
theorem HoldsNormal.load {s : Settings} (h : s.HoldsNormal) {c : Config}
    (hload : (load s).result = .ok c) : c.IsNormal := by
  cases hloaded : s.loaded with
  | some held =>
      rw [load_of_loaded hloaded, Except.ok.injEq] at hload
      exact hload ▸ h held hloaded
  | none =>
      obtain ⟨-, -, rfl⟩ := (load_of_new_iff hloaded).mp hload
      exact Config.isNormal_ofSection _

theorem HoldsNormal.after {s : Settings} (h : s.HoldsNormal) (call : SetCall) :
    (call.after s).HoldsNormal := by
  intro c hc
  cases hload : (Settings.load s).result with
  | error fault =>
      rw [SetCall.after, set_of_error hload] at hc
      exact h c hc
  | ok config =>
      rw [call.loaded_after hload, Option.some.injEq] at hc
      exact hc ▸ (h.load hload).change call.key call.value

/-- The configuration in force stays normal through every run of requests. -/
theorem HoldsNormal.setAll {s : Settings} (h : s.HoldsNormal) (calls : List SetCall) :
    (setAll s calls).HoldsNormal := by
  induction calls generalizing s with
  | nil => exact h
  | cons call rest ih => exact ih (h.after call)

/-- No request puts the configuration out of force. -/
theorem loaded_setAll {s : Settings} {c : Config} (h : s.loaded = some c) (calls : List SetCall) :
    ∃ c', (setAll s calls).loaded = some c' := by
  induction calls generalizing s c with
  | nil => exact ⟨c, h⟩
  | cons call rest ih =>
      have hload : (load s).result = .ok c := by rw [load_of_loaded h]
      exact ih (call.loaded_after hload)

theorem isNormal_setAll {s : Settings} {c : Config} (h : s.loaded = some c) (hc : c.IsNormal)
    (calls : List SetCall) : ∃ c', (setAll s calls).loaded = some c' ∧ c'.IsNormal := by
  have hholds : s.HoldsNormal := by
    intro held hheld
    rw [h, Option.some.injEq] at hheld
    exact hheld ▸ hc
  obtain ⟨c', hc'⟩ := loaded_setAll h calls
  exact ⟨c', hc', hholds.setAll calls c' hc'⟩

/-- Whatever data a configuration was read from and however its settings were changed since, it is
valid just if a registry can be built from it and no alias is passed over.  Every alias is then
routed to its language. -/
theorem valid_iff_built_whole (environment : Environment) (store : Store) (data : Section)
    (calls : List SetCall) :
    ∃ config,
      (setAll { environment, store, loaded := some (Config.ofSection data).1 } calls).loaded =
        some config ∧
      (config.extensionsProblem? = none ↔
        (Registry.build config).result = .ok () ∧
          ∀ ext name, Notice.aliasIgnored ext name ∉ (Registry.build config).notices) ∧
      (config.extensionsProblem? = none →
        ∀ ext name, (ext, name) ∈ config.extensions →
          ∃ language, Language.ofName? name = some language ∧
            find? (Registry.build config).state.routes ext = some language) := by
  obtain ⟨config, hheld, hnormal⟩ :=
    isNormal_setAll (s := { environment, store, loaded := some (Config.ofSection data).1 }) rfl
      (Config.isNormal_ofSection data) calls
  exact ⟨config, hheld, hnormal.valid_iff_built,
    fun hvalid _ _ hmem => hnormal.routed_of_valid hvalid hmem⟩

end Settings
end Polyglot
