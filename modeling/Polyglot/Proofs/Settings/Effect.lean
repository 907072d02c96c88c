/-
Which aliases of a valid configuration decide how a path is identified.

A registry that is built from a valid configuration routes every alias, but a path is identified by
the extension it ends with, and that has neither dots nor slashes.  An alias for such an extension
decides every path that ends with it.  An alias for any other text is routed where no path leads: the
configuration can do without it (`identify_build_erase`).
-/
import Polyglot.Proofs.Registry.Build
import Polyglot.Proofs.Registry.Identify
import Polyglot.Proofs.Settings.Valid

namespace Polyglot

open Table (find?)
open Polyglot.Path (Ends CanEnd)

namespace Config

section Normal

variable {c : Config}

/-- What an alias asks for is its extension as it is spelt. -/
theorem IsNormal.asks_iff (h : c.IsNormal) {entry : String × String} (hentry : entry ∈ c.extensions)
    {e : String} {l : Language} :
    Registry.Asks entry e l ↔ entry.1 = e ∧ Language.ofName? entry.2 = some l := by
  rw [Registry.Asks, Text.dropDot_of_isBare (h.bare entry.1 (List.mem_map_of_mem hentry))]

/-- The other extensions belong to whom they belong also without an alias. -/
theorem IsNormal.owns_erase_iff (h : c.IsNormal) {ext e : String} (hne : e ≠ ext) {l : Language} :
    Registry.Owns (c.extensions.erase ext) e l ↔ Registry.Owns c.extensions e l := by
  refine or_congr_right ⟨?_, ?_⟩
  · rintro ⟨entry, hentry, hasks⟩
    exact ⟨entry, List.mem_of_mem_filter hentry, hasks⟩
  · rintro ⟨entry, hentry, hasks⟩
    refine ⟨entry, List.mem_filter.mpr ⟨hentry, ?_⟩, hasks⟩
    rw [((h.asks_iff hentry).mp hasks).1, Bool.not_eq_true']
    exact beq_eq_false_iff_ne.mpr hne

theorem extensionsProblem?_erase (hvalid : c.extensionsProblem? = none) (ext : String) :
    extensionsProblem? { c with extensions := c.extensions.erase ext } = none := by
  rw [extensionsProblem?_eq_none_iff] at hvalid ⊢
  intro entry hentry
  exact hvalid entry (List.mem_of_mem_filter hentry)

theorem IsNormal.built_of_valid (h : c.IsNormal) (hvalid : c.extensionsProblem? = none) :
    (Registry.build c).result = .ok () :=
  (h.valid_iff_built.mp hvalid).1

/-- A path is identified by the extension that it ends with, as the language that has it from the
start or that an alias gives it to. -/
theorem IsNormal.identify_build_iff (h : c.IsNormal) (hvalid : c.extensionsProblem? = none)
    {path : String} {l : Language} :
    (Registry.build c).state.identify path = some l ↔
      ∃ e, Ends path e ∧ Registry.Owns c.extensions e l := by
  rw [Registry.identify_eq_some_iff]
  exact exists_congr fun e => and_congr_right fun _ =>
    Registry.find?_routes_build_iff (h.built_of_valid hvalid)

/-- An alias for a text that is the extension of no path can be left out. -/
theorem IsNormal.identify_build_erase (h : c.IsNormal) (hvalid : c.extensionsProblem? = none)
    {ext : String} (hext : ¬CanEnd ext) (path : String) :
    (Registry.build { c with extensions := c.extensions.erase ext }).state.identify path =
      (Registry.build c).state.identify path := by
  refine Option.ext fun l => ?_
  rw [(h.erase ext).identify_build_iff (extensionsProblem?_erase hvalid ext),
    h.identify_build_iff hvalid]
  refine exists_congr fun e => and_congr_right fun hends => h.owns_erase_iff ?_
  rintro rfl
  exact hext hends.canEnd

end Normal

end Config

namespace Registry

/-- A registry can be built from a valid configuration that was read from data, and identifies a path
by the extension it ends with, as the language that has it from the start or by an alias.  So every
alias for a text without dots and slashes decides all paths that end with a dot and that text.  An
alias for a text with a dot or a slash in it decides none: without it, all paths are identified as
they are. -/
theorem valid_alias_decides_paths (data : Section)
    (hvalid : (Config.ofSection data).1.extensionsProblem? = none) :
    let config := (Config.ofSection data).1
    (build config).result = .ok () ∧
    (∀ path l, (build config).state.identify path = some l ↔
      ∃ e, Ends path e ∧ Owns config.extensions e l) ∧
    ∀ ext name, (ext, name) ∈ config.extensions → ∃ l, Language.ofName? name = some l ∧
      (ext ≠ "" → '.' ∉ ext.toList → '/' ∉ ext.toList →
        ∀ stem, stem ≠ "" → '/' ∉ stem.toList →
          (build config).state.identify (stem ++ "." ++ ext) = some l) ∧
      ('.' ∈ ext.toList ∨ '/' ∈ ext.toList →
        ∀ path, (build { config with extensions := config.extensions.erase ext }).state.identify path =
          (build config).state.identify path) := by
  intro config
  have hnormal : config.IsNormal := Config.isNormal_ofSection data
  refine ⟨hnormal.built_of_valid hvalid, fun path l => hnormal.identify_build_iff hvalid,
    fun ext name hmem => ?_⟩
  obtain ⟨l, hname, hroute⟩ := hnormal.routed_of_valid hvalid hmem
  refine ⟨l, hname, fun hne hdot hslash stem hstem hwhole => ?_, fun hother path => ?_⟩
  · rw [identify_of_ends (Path.ends_of_canEnd ⟨hne, hdot, hslash⟩ hstem hwhole)]
    exact hroute
  · refine hnormal.identify_build_erase hvalid (fun hends => ?_) path
    exact hother.elim hends.undotted hends.whole

namespace Sample

/-- An alias for an extension, and one for a text that ends in a built-in extension. -/
def compound : Section :=
  [(Config.textKey "languages",
    .map [(Config.textKey "extensions",
      .map [(.text ".pyi", .scalar (.text " Python")), (.text "d.ts", .scalar (.text "rust"))])])]

end Sample

theorem valid_alias_decides_paths_sample :
    (Config.ofSection Sample.compound).1.extensionsProblem? = none ∧
      (build (Config.ofSection Sample.compound).1).state.identify ("." ++ "." ++ "pyi") =
        some .python := by
  have hvalid : (Config.ofSection Sample.compound).1.extensionsProblem? = none := by decide +kernel
  obtain ⟨-, -, haliases⟩ := valid_alias_decides_paths Sample.compound hvalid
  obtain ⟨l, hname, hdecides, -⟩ := haliases "pyi" " Python" (by decide +kernel)
  have hl : l = .python := Option.some.inj (hname.symm.trans (by decide +kernel))
  exact ⟨hvalid, hl ▸ hdecides (by decide) (by decide) (by decide) "." (by decide) (by decide)⟩

/-- An alias for a text with a dot in it is valid and does not decide the paths that end with it. -/
theorem compound_alias_decides_no_path :
    (Config.ofSection Sample.compound).1.extensionsProblem? = none ∧
      ("d.ts", "rust") ∈ (Config.ofSection Sample.compound).1.extensions ∧
      (build (Config.ofSection Sample.compound).1).state.identify ("a" ++ "." ++ "d.ts") =
        some .typescript ∧
      Language.ofName? "rust" = some .rust := by
  decide +kernel

end Registry
end Polyglot
