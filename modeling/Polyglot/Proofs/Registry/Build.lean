/-
What a registry with the aliases of a configuration consists of.

The entries of a configuration are added one by one to the built-in languages, and the first that is
turned down puts an end to it.  That one is turned down depends on pairs only: an entry and a built-in
extension, or two entries (`Clash`).  Where nothing clashes, the registry has the built-in rows, and
an extension belongs to a language if it is built in for it or if an entry asks for it (`Owns`).
Neither looks at the order of the entries.
-/
import Mathlib.Data.List.Basic
import Mathlib.Data.List.Pairwise
import Polyglot.Proofs.Registry.Aliases

namespace Polyglot
namespace Registry

open Table (find?)

/-- The entry routes an extension to a language, by a name that is known. -/
def Asks (entry : String × String) (e : String) (l : Language) : Prop :=
  Text.dropDot entry.1 = e ∧ Language.ofName? entry.2 = some l

/-- The extension is one of the language's built-in ones. -/
def IsBuiltin (e : String) (l : Language) : Prop :=
  ∃ row ∈ Row.builtin, row.language = l ∧ e ∈ row.extensions

/-- An entry asks for an extension that is built in for another language, or that another entry asks
for on behalf of another language. -/
def Clash (entries : List (String × String)) : Prop :=
  ∃ entry ∈ entries, ∃ e l, Asks entry e l ∧ ∃ l', l' ≠ l ∧
    (IsBuiltin e l' ∨ ∃ other ∈ entries, Asks other e l')

/-- The extension belongs to the language from the start, or an entry asks for it. -/
def Owns (entries : List (String × String)) (e : String) (l : Language) : Prop :=
  IsBuiltin e l ∨ ∃ entry ∈ entries, Asks entry e l

/-! ## The built-in rows and routes -/

theorem rows_builtin : builtin.rows = Row.builtin.map fun row => (row.language, row) := rfl

theorem distinct_routes_builtin : Table.Distinct builtin.routes := by
  rw [routes_builtin]
  exact Table.distinct_ofList _

theorem mem_routes_builtin_iff {e : String} {l : Language} :
    (e, l) ∈ builtin.routes ↔ IsBuiltin e l := by
  have hroutes : builtin.routes =
      Row.builtin.flatMap fun row => row.extensions.map fun ext => (ext, row.language) := by
    decide +kernel
  rw [hroutes, List.mem_flatMap]
  refine exists_congr fun row => and_congr_right fun _ => ?_
  rw [List.mem_map]
  constructor
  · rintro ⟨ext, hext, hpair⟩
    obtain ⟨rfl, rfl⟩ := Prod.mk.inj hpair
    exact ⟨rfl, hext⟩
  · rintro ⟨rfl, hext⟩
    exact ⟨e, hext, rfl⟩

theorem find?_routes_builtin_iff {e : String} {l : Language} :
    find? builtin.routes e = some l ↔ IsBuiltin e l :=
  (Table.find?_eq_some_iff_mem distinct_routes_builtin).trans mem_routes_builtin_iff

/-! ## Entries that fit -/

theorem mem_wanted_iff {entries : List (String × String)} {e : String} {l : Language} :
    (e, l) ∈ wanted entries ↔ ∃ entry ∈ entries, Asks entry e l := by
  rw [wanted, List.mem_filterMap]
  refine exists_congr fun entry => and_congr_right fun _ => ?_
  rw [Option.map_eq_some_iff, Asks]
  constructor
  · rintro ⟨l', hname, hpair⟩
    obtain ⟨hext, rfl⟩ := Prod.mk.inj hpair
    exact ⟨hext, hname⟩
  · rintro ⟨rfl, hname⟩
    exact ⟨l, hname, rfl⟩

/-- Aliases fit just if the languages that an extension is to belong to, before or after, are one. -/
theorem fits_iff_forall {routes : Table String Language} {aliases : List (String × Language)} :
    Fits routes aliases ↔
      ∀ e l, (e, l) ∈ aliases → ∀ l', (find? routes e = some l' ∨ (e, l') ∈ aliases) → l' = l := by
  constructor
  · rintro ⟨hfree, hpair⟩ e l hmem l' (howner | hother)
    · exact hfree (e, l) hmem l' howner
    · have : Std.Symm fun a b : String × Language => a.1 = b.1 → a.2 = b.2 :=
        ⟨fun _ _ h heq => (h heq.symm).symm⟩
      exact hpair.forall_of_forall (fun _ _ _ => rfl) hother hmem rfl
  · intro h
    refine ⟨fun a ha owner howner => h a.1 a.2 ha owner (.inl howner), ?_⟩
    exact List.pairwise_of_forall_mem_list fun a ha b hb heq =>
      h b.1 b.2 hb a.2 (.inr (heq ▸ ha))

theorem fits_wanted_iff {entries : List (String × String)} :
    Fits builtin.routes (wanted entries) ↔ ¬Clash entries := by
  simp only [fits_iff_forall, mem_wanted_iff, find?_routes_builtin_iff]
  constructor
  · rintro h ⟨entry, hentry, e, l, hasks, l', hne, howned⟩
    exact hne (h e l ⟨entry, hentry, hasks⟩ l' howned)
  · rintro hclash e l ⟨entry, hentry, hasks⟩ l' howned
    by_contra hne
    exact hclash ⟨entry, hentry, e, l, hasks, l', hne, howned⟩

theorem Fits.find?_update_iff {entries : List (String × String)}
    (h : Fits builtin.routes (wanted entries)) {e : String} {l : Language} :
    find? (Table.update builtin.routes (wanted entries)) e = some l ↔ Owns entries e l := by
  rw [h.find?_update_eq_some_iff, find?_routes_builtin_iff, mem_wanted_iff, Owns]

/-! ## The order of the entries -/

theorem clash_perm {entries entries' : List (String × String)} (h : entries.Perm entries') :
    Clash entries ↔ Clash entries' := by
  unfold Clash
  simp only [h.mem_iff]

theorem owns_perm {entries entries' : List (String × String)} (h : entries.Perm entries')
    {e : String} {l : Language} : Owns entries e l ↔ Owns entries' e l := by
  unfold Owns
  simp only [h.mem_iff]

/-! ## The registry -/

theorem build_of_not_clash {config : Config} (h : ¬Clash config.extensions) :
    build config =
      { result := .ok (),
        state := { builtin with
          routes := Table.update builtin.routes (wanted config.extensions) },
        notices := ignored config.extensions } :=
  addAliases_of_fits contains_builtin (fits_wanted_iff.mpr h)

theorem build_fails_iff {config : Config} :
    (∃ fault, (build config).result = .error (.registry fault)) ↔ Clash config.extensions := by
  constructor
  · rintro ⟨fault, hfault⟩
    by_contra hclash
    rw [build_of_not_clash hclash] at hfault
    cases hfault
  · intro hclash
    exact addAliases_of_not_fits contains_builtin (fun hfits => fits_wanted_iff.mp hfits hclash)

theorem build_succeeds_iff {config : Config} :
    (build config).result = .ok () ↔ ¬Clash config.extensions :=
  build_result_iff.trans fits_wanted_iff

theorem find?_routes_build_iff {config : Config} (h : (build config).result = .ok ()) {e : String}
    {l : Language} :
    find? (build config).state.routes e = some l ↔ Owns config.extensions e l := by
  have hclash := build_succeeds_iff.mp h
  rw [build_of_not_clash hclash]
  exact (fits_wanted_iff.mpr hclash).find?_update_iff

/-- Building fails just if something clashes, and in no other way.  What is built has the built-in
rows, routes every extension to the language that it belongs to, says of each entry with an unknown
name that it is passed over, and knows every path that the built-in languages know.  The order of the
entries decides neither whether it is built nor what is routed where. -/
theorem build_routes_owned (config reordered : Config)
    (hperm : reordered.extensions.Perm config.extensions) :
    ((∃ fault, (build config).result = .error (.registry fault)) ↔ Clash config.extensions) ∧
    ((build config).result = .ok () ↔ ¬Clash config.extensions) ∧
    ((build config).result = .ok () →
      (build config).state.rows = (Row.builtin.map fun row => (row.language, row)) ∧
      Table.Distinct (build config).state.routes ∧
      (∀ e l, find? (build config).state.routes e = some l ↔ Owns config.extensions e l) ∧
      (build config).notices = ignored config.extensions ∧
      ∀ path l, builtin.identify path = some l →
        (build config).state.identify path = some l) ∧
    ((build reordered).result = .ok () ↔ (build config).result = .ok ()) ∧
    ((build config).result = .ok () → ∀ e,
      find? (build reordered).state.routes e = find? (build config).state.routes e) := by
  have hsame : (build reordered).result = .ok () ↔ (build config).result = .ok () := by
    rw [build_succeeds_iff, build_succeeds_iff, clash_perm hperm]
  refine ⟨build_fails_iff, build_succeeds_iff, fun hok => ?_, hsame, fun hok e => ?_⟩
  · have hbuild := build_of_not_clash (build_succeeds_iff.mp hok)
    refine ⟨?_, ?_, fun e l => find?_routes_build_iff hok, ?_, fun path l hpath => ?_⟩
    · rw [hbuild]
      exact rows_builtin
    · rw [hbuild]
      exact Table.distinct_update distinct_routes_builtin _
    · rw [hbuild]
    · obtain ⟨e, hext, hfind⟩ := Option.bind_eq_some_iff.mp hpath
      refine Option.bind_eq_some_iff.mpr ⟨e, hext, (find?_routes_build_iff hok).mpr ?_⟩
      exact .inl (find?_routes_builtin_iff.mp hfind)
  · refine Option.ext fun l => ?_
    rw [find?_routes_build_iff (hsame.mpr hok), find?_routes_build_iff hok, owns_perm hperm]

namespace Sample

/-- Two spellings of one extension that agree, a built-in extension that stays where it is, and an
unknown name. -/
def aliases : Config where
  extensions := [(".pyi", "Python "), ("h", "cobol"), ("py", "python"), ("pyi", "PYTHON")]

end Sample

theorem build_routes_owned_sample :
    (build Sample.aliases).result = .ok () ∧
      find? (build Sample.aliases).state.routes "pyi" = some .python ∧
      (build Sample.aliases).notices = [.aliasIgnored "h" "cobol"] ∧
      (build { Sample.aliases with extensions := Sample.aliases.extensions.reverse }).result =
        .ok () := by
  obtain ⟨-, -, hbuilt, hsame, -⟩ := build_routes_owned Sample.aliases
    { Sample.aliases with extensions := Sample.aliases.extensions.reverse } (List.reverse_perm _)
  have hok : (build Sample.aliases).result = .ok () := by decide +kernel
  obtain ⟨-, -, hroutes, hnotices, -⟩ := hbuilt hok
  refine ⟨hok, (hroutes _ _).mpr (.inr ⟨(".pyi", "Python "), ?_, ?_⟩), ?_, hsame.mpr hok⟩
  · exact List.mem_cons_self
  · exact ⟨by decide +kernel, by decide +kernel⟩
  · rw [hnotices]
    decide +kernel

/-- Two entries can clash where neither clashes with a built-in extension. -/
example : (build { extensions := [(".pyi", "python"), ("pyi", "go")] }).result =
    .error (.registry (.aliasTaken "pyi" .python .go)) := by
  decide +kernel

end Registry
end Polyglot
