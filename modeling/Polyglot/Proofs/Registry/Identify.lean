/-
Which language a path is identified as.

Identification looks up the extension that the path ends with and nothing else of it, so it goes by
the last component alone (`identify_eq_some_iff`).  Only some texts are the extension of a path:
routes for any other text decide nothing (`identify_congr`).
-/
import Polyglot.Language.Builtin
import Polyglot.Proofs.Path
import Polyglot.Proofs.Registry.Call

namespace Polyglot
namespace Registry

open Table (find?)
open Polyglot.Path (Ends IsLast CanEnd)

theorem identify_eq_some_iff {r : Registry} {path : String} {l : Language} :
    r.identify path = some l ↔ ∃ e, Ends path e ∧ find? r.routes e = some l := by
  rw [identify, Option.bind_eq_some_iff]
  exact exists_congr fun e => and_congr_left fun _ => Path.extension?_eq_some_iff

theorem identify_of_ends {r : Registry} {path e : String} (h : Ends path e) :
    r.identify path = find? r.routes e := by
  rw [identify, Path.extension?_eq_some_iff.mpr h]
  rfl

/-- Two registries that route alike what can be an extension identify every path alike. -/
theorem identify_congr {r r' : Registry}
    (h : ∀ e, CanEnd e → find? r'.routes e = find? r.routes e) (path : String) :
    r'.identify path = r.identify path := by
  cases hext : Path.extension? path with
  | none => rw [identify, identify, hext]; rfl
  | some e =>
      have hends : Ends path e := Path.extension?_eq_some_iff.mp hext
      rw [identify_of_ends hends, identify_of_ends hends, h e hends.canEnd]

/-- A path is identified as a language just if its last component is something, a dot and an
extension of that language.  What stands in front of that component or trails behind it does not
matter, and neither do routes for texts that are the extension of no path, because they are empty or
hold a dot or a slash. -/
theorem identify_by_last_component (r : Registry) :
    (∀ path l, r.identify path = some l ↔ ∃ e, Ends path e ∧ find? r.routes e = some l) ∧
    (∀ dir path name, IsLast path.toList name →
      r.identify (dir ++ "/" ++ path) = r.identify path) ∧
    (∀ path, r.identify (path ++ "/") = r.identify path ∧
      r.identify (path ++ "/.") = r.identify path) ∧
    (∀ routes : Table String Language,
      (∀ e, e ≠ "" → '.' ∉ e.toList → '/' ∉ e.toList → find? routes e = find? r.routes e) →
      ∀ path, identify { r with routes } path = r.identify path ∧
        isSupported { r with routes } path = r.isSupported path ∧
        rowOfPath { r with routes } path = r.rowOfPath path) := by
  refine ⟨fun path l => identify_eq_some_iff, fun dir path name hlast => ?_, fun path => ⟨?_, ?_⟩,
    fun routes hsame path => ?_⟩
  · rw [identify, identify, Path.extension?_behind hlast]
  · rw [identify, identify, Path.extension?_append_of_trails (t := "/") (.slash .nil)]
  · rw [identify, identify, Path.extension?_append_of_trails (t := "/.") (.dot .nil)]
  · have hidentify : identify { r with routes } path = r.identify path :=
      identify_congr (fun e he => hsame e he.nonempty he.undotted he.whole) path
    refine ⟨hidentify, ?_, ?_⟩
    · rw [isSupported, isSupported, hidentify]
    · rw [rowOfPath, rowOfPath, hidentify]

namespace Sample

/-- Routes with texts among them that are the extension of no path. -/
def cluttered : Registry :=
  run empty
    [.register Row.rust, .addAlias "" .rust, .addAlias "tar.rs" .rust, .addAlias "x/rs" .rust]

end Sample

/-- A name that begins with a dot, behind a directory that looks like a file and in front of slashes
and dots.  Most of the routes can be left out. -/
theorem identify_by_last_component_sample :
    IsLast "..rs//.".toList "..rs".toList ∧
      Sample.cluttered.identify ("a.go" ++ "/" ++ "..rs//.") = some .rust ∧
      identify { Sample.cluttered with routes := [("rs", .rust)] } "..rs" = some .rust := by
  obtain ⟨hiff, hbehind, htrail, hdead⟩ := identify_by_last_component Sample.cluttered
  have hname : Sample.cluttered.identify "..rs" = some .rust := by
    refine (hiff _ _).mpr ⟨"rs", ⟨⟨['.'], by decide, ?_⟩, by decide, by decide⟩, by decide +kernel⟩
    exact ⟨by decide, by decide, by decide, [], [], rfl, .inl rfl, .nil⟩
  have hlast : IsLast "..rs//.".toList "..rs".toList :=
    ⟨by decide, by decide, by decide, [], "//.".toList, rfl, .inl rfl, .slash (.dot .nil)⟩
  have hroutes : Sample.cluttered.routes =
      [("rs", .rust), ("", .rust), ("tar.rs", .rust), ("x/rs", .rust)] := by decide +kernel
  refine ⟨hlast, ?_, ?_⟩
  · rw [hbehind _ _ _ hlast]
    exact ((htrail "..rs/").2.trans (htrail "..rs").1).trans hname
  · refine (hdead _ (fun e hne hdot hslash => ?_) "..rs").1.trans hname
    have hdotted : e ≠ "tar.rs" := by
      rintro rfl
      exact hdot (by decide)
    have hslashed : e ≠ "x/rs" := by
      rintro rfl
      exact hslash (by decide)
    simp [hroutes, Table.find?_cons, hne, hdotted, hslashed]

end Registry
end Polyglot
