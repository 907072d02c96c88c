/-
A configuration comes back from the data that stands for it.

Reading drops the dots in front of an extension and puts the default names in the place of none.  So a
configuration comes back as it was just if it has names and no extension with a dot in front
(`agrees_toSection_iff`).  Whatever is read from data is of that kind, and so is whatever is in force
after a run of changes, whether they stand, are refused or cannot be saved.
-/
import Polyglot.Proofs.Settings.Valid

namespace Polyglot

open Table (find? keys Distinct)

namespace Config

/-! ## What is read back -/

theorem extensions_toSection (c : Config) :
    (ofSection c.toSection).1.extensions =
      Table.ofList (c.extensions.map fun (ext, name) => (Text.dropDots ext, name)) := by
  have haliases : aliases c.toSection = c.extensions.map aliasEntry := rfl
  rw [extensions_ofSection, haliases, List.map_map]
  rfl

theorem names_toSection (c : Config) :
    (ofSection c.toSection).1.names =
      if c.names = [] then Highlight.defaultNames else c.names := by
  have hfind : find? (tableAt c.toSection "highlight") (textKey "names") =
      some (.list (c.names.map fun name => .scalar (.text name))) := rfl
  rw [names_ofSection, names_of_texts hfind]

theorem notices_toSection (c : Config) : (ofSection c.toSection).2 = [] := by
  rcases c with ⟨extensions, names⟩
  cases names with
  | nil => rfl
  | cons first rest => rfl

/-! ## What comes back as it was -/

section Normal

variable {c : Config}

theorem IsNormal.ofSection_toSection (h : c.IsNormal) : ofSection c.toSection = (c, []) := by
  have hsame : (c.extensions.map fun (ext, name) => (Text.dropDots ext, name)) = c.extensions := by
    refine (List.map_congr_left fun e he => ?_).trans (List.map_id _)
    show (Text.dropDots e.1, e.2) = e
    rw [Text.dropDots_of_isBare (h.bare e.1 (List.mem_map_of_mem he))]
  have hextensions : (ofSection c.toSection).1.extensions = c.extensions := by
    rw [extensions_toSection, hsame, Table.ofList_eq_self h.distinct]
  have hnames : (ofSection c.toSection).1.names = c.names := by
    rw [names_toSection, if_neg h.named]
  refine Prod.ext ?_ (notices_toSection c)
  show Config.mk (ofSection c.toSection).1.extensions (ofSection c.toSection).1.names = c
  rw [hextensions, hnames]

/-- What comes back agrees with the configuration only if nothing had to be dropped or put in, for
what is read from data has neither dots in front nor lacks names. -/
theorem isNormal_of_agrees (hdistinct : Distinct c.extensions)
    (h : c.Agrees (ofSection c.toSection).1) : c.IsNormal := by
  obtain ⟨hnames, hextensions⟩ := h
  have hread := isNormal_ofSection c.toSection
  refine ⟨hdistinct, fun ext hext => hread.bare ext ?_, hnames ▸ hread.named⟩
  rw [← Table.contains_iff_mem, Table.contains] at hext ⊢
  rw [hextensions]
  exact hext

theorem agrees_toSection_iff (hdistinct : Distinct c.extensions) :
    c.Agrees (ofSection c.toSection).1 ↔
      c.names ≠ [] ∧ ∀ ext ∈ keys c.extensions, Text.isBare ext = true := by
  constructor
  · intro h
    have hnormal := isNormal_of_agrees hdistinct h
    exact ⟨hnormal.named, hnormal.bare⟩
  · rintro ⟨hnamed, hbare⟩
    have hnormal : c.IsNormal := ⟨hdistinct, hbare, hnamed⟩
    rw [hnormal.ofSection_toSection]
    exact ⟨rfl, fun _ => rfl⟩

end Normal

end Config

namespace Settings

/-- The configuration in force, if there is one, was read from data. -/
def HoldsRead (s : Settings) : Prop :=
  ∀ c, s.loaded = some c → ∃ data, c = (Config.ofSection data).1

theorem HoldsRead.holdsNormal {s : Settings} (h : s.HoldsRead) : s.HoldsNormal := by
  intro c hc
  obtain ⟨data, rfl⟩ := h c hc
  exact Config.isNormal_ofSection data

/-- A configuration comes back from its data just if it has names and no extension with a dot in
front, and then in the same order and without a word.  Every configuration that is read from data is
of that kind.  Where such a one is in force, or none is yet, every one that is in force after any
requests is of that kind as well. -/
theorem round_trip_iff_bare_and_named :
    (∀ c : Config, Distinct c.extensions →
      (c.Agrees (Config.ofSection c.toSection).1 ↔
        c.names ≠ [] ∧ ∀ ext ∈ keys c.extensions, Text.isBare ext = true) ∧
      (Config.ofSection c.toSection = (c, []) ↔
        c.names ≠ [] ∧ ∀ ext ∈ keys c.extensions, Text.isBare ext = true)) ∧
    (∀ data c, c = (Config.ofSection data).1 →
      c.names ≠ [] ∧ (∀ ext ∈ keys c.extensions, Text.isBare ext = true) ∧
        Config.ofSection c.toSection = (c, [])) ∧
    ∀ (s : Settings) (calls : List SetCall), s.HoldsRead →
      (s.loaded.isSome = true → (setAll s calls).loaded.isSome = true) ∧
      ∀ c, (setAll s calls).loaded = some c →
        c.names ≠ [] ∧ (∀ ext ∈ keys c.extensions, Text.isBare ext = true) ∧
          Config.ofSection c.toSection = (c, []) := by
  refine ⟨fun c hdistinct => ⟨Config.agrees_toSection_iff hdistinct, ?_, ?_⟩, fun data c hc => ?_,
    fun s calls hread => ⟨fun hsome => ?_, fun c hc => ?_⟩⟩
  · intro h
    rw [← Config.agrees_toSection_iff hdistinct, h]
    exact ⟨rfl, fun _ => rfl⟩
  · rintro ⟨hnamed, hbare⟩
    exact Config.IsNormal.ofSection_toSection ⟨hdistinct, hbare, hnamed⟩
  · have hnormal : c.IsNormal := hc ▸ Config.isNormal_ofSection data
    exact ⟨hnormal.named, hnormal.bare, hnormal.ofSection_toSection⟩
  · obtain ⟨held, hheld⟩ := Option.isSome_iff_exists.mp hsome
    exact Option.isSome_iff_exists.mpr (loaded_setAll hheld calls)
  · have hnormal := hread.holdsNormal.setAll calls c hc
    exact ⟨hnormal.named, hnormal.bare, hnormal.ofSection_toSection⟩

namespace Sample

/-- Two spellings of one extension, a key that is a number, and a name that is none. -/
def oddData : Section :=
  [(Config.textKey "languages",
    .map [(Config.textKey "extensions",
      .map [(.text ".pyi", .scalar (.text "go")), (.text "..pyi", .scalar (.text "Python")),
        (.int 7, .scalar .null)])]),
   (Config.textKey "highlight", .map [(Config.textKey "names", .list [.scalar (.bool true)])])]

/-- The project's file cannot be written. -/
def oddSettings : Settings where
  store := { project := .blocked }
  loaded := some (Config.ofSection oddData).1

/-- A request that is refused, one that cannot be saved, and one that is met. -/
def oddRequests : List SetCall :=
  [⟨"languages.extensions.pyi", "python", .project⟩, ⟨"highlight.names", "type", .project⟩,
   ⟨"highlight.names", " type, ,tag", .user⟩]

/-- An extension with a dot in front. -/
def unread : Config where
  extensions := [("pyi", "python"), (".pyi", "go")]

end Sample

theorem round_trip_iff_bare_and_named_sample :
    Distinct Sample.unread.extensions ∧
      ¬Sample.unread.Agrees (Config.ofSection Sample.unread.toSection).1 ∧
      Sample.oddSettings.HoldsRead ∧
      ∃ c, (setAll Sample.oddSettings Sample.oddRequests).loaded = some c ∧
        c.extensions = [("7", "None")] ∧ c.names = ["type", "tag"] ∧
        Config.ofSection c.toSection = (c, []) := by
  obtain ⟨hiff, -, hrun⟩ := round_trip_iff_bare_and_named
  have hdistinct : Distinct Sample.unread.extensions := by
    simp [Distinct, keys, Sample.unread]
  have hread : Sample.oddSettings.HoldsRead := by
    intro c hc
    exact ⟨Sample.oddData, (Option.some.inj hc).symm⟩
  have hheld : (setAll Sample.oddSettings Sample.oddRequests).loaded =
      some { extensions := [("7", "None")], names := ["type", "tag"] } := by decide +kernel
  refine ⟨hdistinct, fun hagrees => ?_, hread, _, hheld, rfl, rfl, ?_⟩
  · have hbare := (((hiff _ hdistinct).1).mp hagrees).2 ".pyi" (by decide)
    exact absurd hbare (by decide)
  · exact (((hrun _ Sample.oddRequests hread).2 _ hheld).2).2

end Settings
end Polyglot
