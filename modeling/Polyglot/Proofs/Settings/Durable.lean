/-
A change that was saved for the project is there when the configuration is loaded again.

Saving puts the whole configuration into the project's file, also what came from the layers below.
Loading merges it over these layers once more.  That gives the same answers, because the saved
extensions cover those below: each key below is a text without dots in front, so it is spelt as the
extension that was saved for it (`Config.Covers`).  What is saved to a file that cannot be read again
is lost (`project_set_is_lost`).
-/
import Polyglot.Proofs.Config.Listed
import Polyglot.Proofs.Settings.Priority
import Polyglot.Proofs.Settings.Saved
import Polyglot.Proofs.Text.Split

namespace Polyglot

open Table (find? keys contains Distinct)
open Value (WellKeyed)

namespace Settings

theorem settingOf?_injective {key other : String} {setting : Setting}
    (hkey : settingOf? key = some setting) (hother : settingOf? other = some setting) :
    other = key := by
  refine Text.fields_injective '.' ?_
  rw [settingOf?] at hkey hother
  split at hkey
  · rename_i ext hfields
    split at hother
    · rename_i ext' hfields'
      rw [← hother, Option.some.injEq, Setting.extension.injEq] at hkey
      rw [hfields, hfields', hkey]
    · rename_i hfields'
      rw [← hother] at hkey
      cases hkey
    · cases hother
  · rename_i hfields
    split at hother
    · rw [← hother] at hkey
      cases hkey
    · rename_i hfields'
      rw [hfields, hfields']
    · cases hother
  · cases hkey

/-- An extension in a key has no dots, so it stands for itself. -/
theorem dropDots_of_settingOf? {key ext : String} (h : settingOf? key = some (.extension ext)) :
    Text.dropDots ext = ext := by
  refine Text.dropDots_of_isBare (Text.isBare_of_mem_fields (s := key) ?_)
  rw [settingOf?] at h
  split at h
  · rename_i ext' hfields
    rw [Option.some.injEq, Setting.extension.injEq] at h
    simp [hfields, h]
  · cases h
  · cases h

/-! ## Answers -/

/-- What a configuration says about a setting. -/
def valueOf (config : Config) : Setting → Option String
  | .extension ext => find? config.extensions (Text.dropDots ext)
  | .names => some (",".intercalate config.names)

/-- What is kept of a value that was given for a setting. -/
def kept (value : String) : Setting → String
  | .extension _ => Text.strip value
  | .names => ",".intercalate (Config.parseNames value)

theorem get_of_ok {s : Settings} {config : Config} (h : (load s).result = .ok config)
    (key : String) : (get key s).result = .ok ((settingOf? key).bind (valueOf config)) := by
  rw [get, Action.bind_of_ok h, settingOf?]
  dsimp only
  split
  · rename_i ext hfields
    simp only [hfields]
    rfl
  · rename_i hfields
    simp only [hfields]
    rfl
  · rename_i hextension hnames
    refine congrArg (fun answer : Action Settings (Option String) => (answer _).result)
      (?_ : _ = pure none)
    split
    · rename_i hfields
      exact absurd hfields hnames
    · rename_i ext hfields
      exact absurd hfields (hextension ext)
    · rfl

theorem valueOf_changed (config : Config) (value : String) (setting : Setting) :
    valueOf (changed config value setting) setting = some (kept value setting) := by
  cases setting with
  | extension ext => exact Table.find?_insert_self _ _ _
  | names => rfl

theorem valueOf_changed_of_ne {key other : String} {setting setting' : Setting}
    (hkey : settingOf? key = some setting) (hother : settingOf? other = some setting')
    (hne : setting' ≠ setting) (config : Config) (value : String) :
    valueOf (changed config value setting) setting' = valueOf config setting' := by
  cases setting with
  | names =>
      cases setting' with
      | names => exact absurd rfl hne
      | extension ext' => rfl
  | extension ext =>
      cases setting' with
      | names => rfl
      | extension ext' =>
          have hext : Text.dropDots ext' ≠ Text.dropDots ext := by
            rw [dropDots_of_settingOf? hkey, dropDots_of_settingOf? hother]
            rintro rfl
            exact hne rfl
          rw [valueOf, changed, Table.find?_insert, if_neg (mt beq_iff_eq.mp hext)]
          rfl

end Settings

namespace Config

/-! ## Configurations that can be saved and loaded again -/

/-- What holds of every configuration that was loaded, and after every change that stands. -/
structure IsNormal (c : Config) : Prop where
  distinct : Distinct c.extensions
  bare : ∀ ext ∈ keys c.extensions, Text.isBare ext = true
  named : c.names ≠ []

theorem names_ofSection (data : Section) :
    (ofSection data).1.names =
      ((namesOf (tableAt data "highlight")).1.map (·.map Value.plain)).getD
        Highlight.defaultNames := by
  rw [← sectionOf_fst]
  rfl

theorem namesOf_ne_nil {highlight : Section} {items : List Value}
    (h : (namesOf highlight).1 = some items) : items ≠ [] := by
  rw [namesOf] at h
  split at h
  · cases h
  · cases h
  · cases h
  · rename_i found hfound _
    rw [← Option.some.inj h]
    rintro rfl
    exact hfound rfl
  · cases h

/-- Names that stand as texts in a list are taken as they are, and the default ones where there are
none. -/
theorem names_of_texts {highlight : Section} {names : List String}
    (h : find? highlight (textKey "names") =
      some (.list (names.map fun name => .scalar (.text name)))) :
    ((namesOf highlight).1.map (·.map Value.plain)).getD Highlight.defaultNames =
      if names = [] then Highlight.defaultNames else names := by
  rw [namesOf, h]
  cases names with
  | nil => rfl
  | cons first rest =>
      show (first :: (rest.map _).map Value.plain) = first :: rest
      rw [List.map_map]
      exact congrArg (first :: ·) (List.map_id rest)

theorem isNormal_ofSection (data : Section) : IsNormal (ofSection data).1 where
  distinct := by
    rw [extensions_ofSection]
    exact Table.distinct_ofList _
  bare := by
    intro ext hext
    rw [extensions_ofSection, Table.mem_keys_ofList] at hext
    obtain ⟨entry, hentry, rfl⟩ := List.mem_map.mp hext
    obtain ⟨found, -, rfl⟩ := List.mem_map.mp hentry
    exact Text.isBare_dropDots _
  named := by
    rw [names_ofSection]
    cases hitems : (namesOf (tableAt data "highlight")).1 with
    | none => exact List.cons_ne_nil _ _
    | some items => exact fun h => namesOf_ne_nil hitems (List.map_eq_nil_iff.mp h)

theorem isNormal_change {c : Config} (h : c.IsNormal) {key value : String}
    (hstands : (Settings.change c key value).refusal = none) :
    (Settings.change c key value).config.IsNormal := by
  obtain ⟨setting, hsetting, hchanged⟩ := Settings.change_stands hstands
  rw [hchanged]
  cases setting with
  | extension ext =>
      refine ⟨Table.distinct_insert h.distinct _ _, fun ext' hext' => ?_, h.named⟩
      rcases Table.mem_keys_insert.mp hext' with rfl | hold
      · exact Text.isBare_dropDots _
      · exact h.bare ext' hold
  | names =>
      refine ⟨h.distinct, h.bare, fun hnil => ?_⟩
      rw [Settings.change_of_names hsetting, Settings.changeNames] at hstands
      have hproblem : { c with names := parseNames value }.namesProblem? = some .noNames := by
        have hempty : parseNames value = [] := hnil
        rw [namesProblem?, hempty]
        rfl
      rw [hproblem] at hstands
      cases hstands

/-! ## Layers below a saved configuration -/

/-- A text without dots in front. -/
def isBareKey : Scalar → Bool
  | .text s => Text.isBare s
  | _ => false

/-- Every alias in the data of a layer is spelt as a text without dots in front. -/
def isBare (data : Section) : Bool := (keys (aliases data)).all isBareKey

theorem exists_of_isBareKey {k : Scalar} (h : isBareKey k = true) :
    ∃ ext, k = textKey ext ∧ Text.isBare ext = true := by
  cases k with
  | text s => exact ⟨s, rfl, h⟩
  | null | bool | int | float | date | moment | bytes => cases h

theorem isBare_merge {base upper : Section} (hupper : WellKeyed (.map upper))
    (hb : isBare base = true) (hu : isBare upper = true) :
    isBare (Value.merge base upper) = true := by
  rw [isBare, aliases_merge base hupper]
  split
  · rw [Value.keys_merge _ (distinct_aliases hupper), List.all_append, Bool.and_eq_true]
    exact ⟨hb, List.all_eq_true.mpr fun k hk =>
      List.all_eq_true.mp hu k (List.mem_filter.mp hk).1⟩
  · rfl

theorem distinct_aliases_merge {base upper : Section} (hupper : WellKeyed (.map upper))
    (hb : Distinct (aliases base)) : Distinct (aliases (Value.merge base upper)) := by
  rw [aliases_merge base hupper]
  split
  · exact Value.distinct_merge hb _
  · exact Table.distinct_nil

/-- The extensions of a configuration include the aliases of a layer, each under its own key. -/
def Covers (c : Config) (base : Section) : Prop :=
  ∀ k ∈ keys (aliases base), ∃ ext ∈ keys c.extensions, k = textKey ext

/-- What is loaded over a layer covers it. -/
theorem covers_ofSection {base upper : Section} (hupper : WellKeyed (.map upper))
    (hb : isBare base = true) (hu : isTabled upper = true) :
    (ofSection (Value.merge base upper)).1.Covers base := by
  intro k hk
  obtain ⟨ext, rfl, hext⟩ := exists_of_isBareKey (List.all_eq_true.mp hb k hk)
  refine ⟨ext, ?_, rfl⟩
  have hmerged : textKey ext ∈ keys (Value.merge (aliases base) (aliases upper)) := by
    rw [Value.keys_merge _ (distinct_aliases hupper)]
    exact List.mem_append_left _ hk
  rw [extensions_ofSection, aliases_merge base hupper, if_pos hu, Table.mem_keys_ofList]
  obtain ⟨entry, hentry, hkey⟩ := List.mem_map.mp hmerged
  refine List.mem_map.mpr ⟨_, List.mem_map_of_mem hentry, ?_⟩
  show Text.dropDots entry.1.plain = ext
  rw [hkey]
  exact Text.dropDots_of_isBare hext

theorem Covers.changed {c : Config} {base : Section} (h : c.Covers base) (value : String)
    (setting : Settings.Setting) : (Settings.changed c value setting).Covers base := by
  intro k hk
  obtain ⟨ext, hext, hkey⟩ := h k hk
  cases setting with
  | extension ext' => exact ⟨ext, Table.mem_keys_insert.mpr (.inr hext), hkey⟩
  | names => exact ⟨ext, hext, hkey⟩

/-! ## Loading what was saved -/

/-- The two configurations answer alike. -/
def Agrees (c d : Config) : Prop :=
  d.names = c.names ∧ ∀ ext, find? d.extensions ext = find? c.extensions ext

theorem find?_map_aliasEntry (t : Table String String) (ext : String) :
    find? (t.map aliasEntry) (textKey ext) =
      (find? t ext).map fun name => Value.scalar (.text name) := by
  induction t with
  | nil => rfl
  | cons e rest ih =>
      obtain ⟨key, name⟩ := e
      rw [List.map_cons, aliasEntry, Table.find?_cons, Table.find?_cons, textKey_beq_textKey, ih]
      split <;> rfl

/-- What is saved for the project is read back as the configuration. -/
def Survives (c : Config) : Prop :=
  ∃ data, (File.text c.document).data .project = .ok (data, []) ∧ c.ReadsBack data

section Reload

variable {c : Config} {base data : Section}

theorem highlight_of_readsBack (hdata : WellKeyed (.map data)) (h : c.ReadsBack data) :
    tableAt data "highlight" =
        [(textKey "names", .list (c.names.map fun name => .scalar (.text name)))] ∧
      isTableAt data "highlight" = true := by
  obtain ⟨table, -, hsection⟩ := h
  have hmem : (textKey "highlight", _) ∈ data :=
    hsection.mem_iff.mpr (List.mem_cons_of_mem _ List.mem_cons_self)
  have hfind := Table.find?_of_mem hdata.distinct hmem
  rw [tableAt, isTableAt, hfind]
  exact ⟨rfl, rfl⟩

theorem aliases_of_readsBack (hdata : WellKeyed (.map data)) (h : c.ReadsBack data) :
    isTabled data = true ∧
      ∃ table : Table String String, List.Perm table c.extensions ∧
        aliases data = table.map aliasEntry := by
  obtain ⟨table, hperm, hsection⟩ := h
  have hmem : (textKey "languages", _) ∈ data := hsection.mem_iff.mpr List.mem_cons_self
  have hfind := Table.find?_of_mem hdata.distinct hmem
  have htable : tableAt data "languages" =
      [(textKey "extensions", .map (table.map aliasEntry))] := by
    rw [tableAt, hfind]
    rfl
  refine ⟨?_, table, hperm, ?_⟩
  · rw [isTabled, htable, isTableAt, hfind]
    rfl
  · rw [aliases, htable]
    rfl

/-- The names that were saved go before those of any layer below. -/
theorem names_reload (hc : c.IsNormal) (hdata : WellKeyed (.map data)) (h : c.ReadsBack data)
    (base : Section) : (ofSection (Value.merge base data)).1.names = c.names := by
  obtain ⟨htable, histable⟩ := highlight_of_readsBack hdata h
  have hdistinct := (wellKeyed_tableAt hdata "highlight").distinct
  rw [htable] at hdistinct
  have hfind : find? (tableAt (Value.merge base data) "highlight") (textKey "names") =
      some (.list (c.names.map fun name => .scalar (.text name))) := by
    rw [tableAt_merge base hdata, if_pos histable, htable, Value.find?_merge _ hdistinct]
    rfl
  rw [names_ofSection, names_of_texts hfind, if_neg hc.named]

/-- A saved configuration gives the same aliases over every layer that it covers. -/
theorem find?_reload (hc : c.IsNormal) (hdata : WellKeyed (.map data)) (h : c.ReadsBack data)
    (hbase : Distinct (aliases base)) (hcovers : c.Covers base) (ext : String) :
    find? (ofSection (Value.merge base data)).1.extensions ext = find? c.extensions ext := by
  obtain ⟨htabled, table, hperm, haliases⟩ := aliases_of_readsBack hdata h
  -- No key of the merged table has another spelling than the extension that was saved for it, so at
  -- most one of them reads as `ext`.
  have hspelt : ∀ k ∈ keys (Value.merge (aliases base) (aliases data)),
      ∃ e ∈ keys c.extensions, k = textKey e := by
    intro k hk
    rw [Value.keys_merge _ (distinct_aliases hdata), List.mem_append] at hk
    rcases hk with hbelow | hsaved
    · exact hcovers k hbelow
    · have hkey := (List.mem_filter.mp hsaved).1
      rw [haliases, keys, List.map_map] at hkey
      obtain ⟨entry, hentry, rfl⟩ := List.mem_map.mp hkey
      exact ⟨entry.1, List.mem_map_of_mem (hperm.mem_iff.mp hentry), rfl⟩
  have hreads : ∀ k ∈ keys (Value.merge (aliases base) (aliases data)),
      Layers.reads ext k = (k == textKey ext) := by
    intro k hk
    obtain ⟨e, he, rfl⟩ := hspelt k hk
    show (ext == Text.dropDots e) = _
    rw [Text.dropDots_of_isBare (hc.bare e he), textKey_beq_textKey, BEq.comm]
  rw [extensions_ofSection, aliases_merge base hdata, if_pos htabled, Layers.find?_ofList_map,
    Layers.lastOf_eq_find? (Value.distinct_merge hbase _) hreads,
    Value.find?_merge _ (distinct_aliases hdata), haliases, find?_map_aliasEntry,
    ← Table.find?_perm hc.distinct hperm.symm]
  cases hfind : find? c.extensions ext with
  | some name => rfl
  | none =>
      -- What was not saved is not below either.
      have hnone : find? (aliases base) (textKey ext) = none := by
        refine Table.find?_eq_none_iff.mpr fun k hk => ?_
        obtain ⟨e, he, rfl⟩ := hcovers k hk
        rw [textKey_beq_textKey]
        exact Table.find?_eq_none_iff.mp hfind e he
      show (find? (aliases base) (textKey ext)).map Value.plain = none
      rw [hnone]
      rfl

theorem agrees_reload (hc : c.IsNormal) (hdata : WellKeyed (.map data)) (h : c.ReadsBack data)
    (hbase : Distinct (aliases base)) (hcovers : c.Covers base) :
    c.Agrees (ofSection (Value.merge base data)).1 :=
  ⟨names_reload hc hdata h base, find?_reload hc hdata h hbase hcovers⟩

end Reload

end Config

namespace Environment

theorem isBare_data (e : Environment) : Config.isBare e.data = true := by
  rw [Config.isBare, aliases_data]
  cases e.extensions.filter (!·.isEmpty) with
  | none => rfl
  | some value =>
      refine List.all_eq_true.mpr fun k hk => ?_
      obtain ⟨entry, hentry, rfl⟩ := List.mem_map.mp hk
      obtain ⟨found, hfound, rfl⟩ := List.mem_map.mp hentry
      exact (Config.isKey_of_mem_parseExtensions (List.mem_map_of_mem hfound)).bare

end Environment

namespace Settings

/-- The data of the layers below the project's. -/
def below (s : Settings) : Section :=
  Value.merge s.environment.data (s.store.user.dataOf .user)

theorem isBare_below {s : Settings} (h : Config.isBare (s.store.user.dataOf .user) = true) :
    Config.isBare s.below = true :=
  Config.isBare_merge (s.store.user.wellKeyed_dataOf .user) s.environment.isBare_data h

theorem distinct_below (s : Settings) : Distinct (Config.aliases s.below) :=
  Config.distinct_aliases_merge (s.store.user.wellKeyed_dataOf .user)
    s.environment.distinct_aliases

/-- What is loaded comes from the project's data over the layers below, if all of it can be read. -/
theorem load_of_new_iff {s : Settings} {config : Config} (hnew : s.loaded = none) :
    (load s).result = .ok config ↔
      (∃ notices, s.store.user.data .user = .ok (s.store.user.dataOf .user, notices)) ∧
      (∃ notices, s.store.project.data .project =
        .ok (s.store.project.dataOf .project, notices)) ∧
      (Config.ofSection (Value.merge s.below (s.store.project.dataOf .project))).1 = config := by
  rw [load_of_new hnew, Store.load, below]
  simp only [File.dataOf]
  cases s.store.user.data .user with
  | error fault => simp
  | ok user =>
      obtain ⟨user, fromUser⟩ := user
      cases s.store.project.data .project with
      | error fault => simp
      | ok project =>
          obtain ⟨project, fromProject⟩ := project
          simp

/-- A change that was made stands, is in force and is saved. -/
theorem of_set_ok {s : Settings} {key value : String} {layer : Layer}
    (h : (set key value layer s).result = .ok none) :
    ∃ config, (load s).result = .ok config ∧ (change config key value).refusal = none ∧
      (set key value layer s).state.loaded = some (change config key value).config ∧
      (set key value layer s).state.store.file layer =
        (s.store.file layer).written (change config key value).config.document := by
  cases hload : (load s).result with
  | error fault =>
      rw [set_of_error hload] at h
      cases h
  | ok config =>
      rw [set_of_ok hload] at h ⊢
      refine ⟨config, rfl, ?_⟩
      cases hrefusal : (change config key value).refusal with
      | some refusal =>
          rw [hrefusal] at h
          cases h
      | none =>
          rw [hrefusal] at h
          rcases hwrite : s.store.write layer (change config key value).config.document with
            ⟨store, _ | fault⟩
          · refine ⟨rfl, rfl, ?_⟩
            show store.file layer = _
            rw [Store.write_succeeds hwrite, Store.file_put]
          · rw [hwrite] at h
            cases h

theorem valueOf_of_agrees {c d : Config} (h : c.Agrees d) : valueOf d = valueOf c := by
  funext setting
  cases setting with
  | extension ext => exact h.2 _
  | names => exact congrArg (fun names => some (",".intercalate names)) h.1

/-- A configuration in the project's file answers for itself if it covers the layers below. -/
theorem get_of_saved {s : Settings} {c : Config} (hnew : s.loaded = none)
    (huser : ∃ notices, s.store.user.data .user = .ok (s.store.user.dataOf .user, notices))
    (hproject : s.store.project = .text c.document) (hc : c.IsNormal) (hcovers : c.Covers s.below)
    (hsaved : c.Survives) (key : String) :
    (get key s).result = .ok ((settingOf? key).bind (valueOf c)) := by
  obtain ⟨data, hdata, hreads⟩ := hsaved
  rw [← hproject] at hdata
  have hdataOf : s.store.project.dataOf .project = data := by rw [File.dataOf, hdata]
  have hkeyed : WellKeyed (.map data) := hdataOf ▸ s.store.project.wellKeyed_dataOf .project
  have hload : (load s).result = .ok (Config.ofSection (Value.merge s.below data)).1 := by
    refine (load_of_new_iff hnew).mpr ⟨huser, ⟨[], ?_⟩, ?_⟩
    · rw [hdataOf, hdata]
    · rw [hdataOf]
  rw [get_of_ok hload,
    valueOf_of_agrees (Config.agrees_reload hc hkeyed hreads s.distinct_below hcovers)]

/-- A change for the project that was made is found again by all who load the configuration anew
from the same environment and the same file of the user, and every other key is answered as before.
The project's file may spell its extensions in any way; the user's file has to spell them as texts
without dots in front.  If the project's file keeps no texts, nothing of the change is found. -/
theorem project_set_endures {s : Settings} {key value : String} (hnew : s.loaded = none)
    (hproject : s.store.project.isTabled .project = true)
    (huser : Config.isBare (s.store.user.dataOf .user) = true)
    (hset : (set key value .project s).result = .ok none)
    (hsaved : ∀ c, (set key value .project s).state.loaded = some c → c.Survives) :
    let reopened : Settings :=
      { environment := s.environment
        store := { s.store with project := (set key value .project s).state.store.project } }
    (s.store.project.keepsTexts = true →
      (∃ setting, settingOf? key = some setting ∧
        (get key reopened).result = .ok (some (kept value setting))) ∧
      ∀ other, other ≠ key → (get other reopened).result = (get other s).result) ∧
    (s.store.project.keepsTexts = false →
      ∀ other, (get other reopened).result = (get other s).result) := by
  intro reopened
  obtain ⟨config, hload, hstands, hloaded, hwritten⟩ := of_set_ok hset
  have hfile : reopened.store.project = if s.store.project.keepsTexts then
      .text (change config key value).config.document else s.store.project :=
    hwritten.trans (File.written_eq _ _)
  refine ⟨fun hkeeps => ?_, fun hkeeps other => ?_⟩
  · rw [hkeeps, if_pos rfl] at hfile
    obtain ⟨setting, hsetting, hchanged⟩ := change_stands hstands
    obtain ⟨hread, -, hconfig⟩ := (load_of_new_iff hnew).mp hload
    have hnormal : (change config key value).config.IsNormal :=
      Config.isNormal_change (hconfig ▸ Config.isNormal_ofSection _) hstands
    have hcovers : (change config key value).config.Covers s.below := by
      rw [hchanged, ← hconfig]
      exact (Config.covers_ofSection (s.store.project.wellKeyed_dataOf .project)
        (isBare_below huser) (File.data_of_isTabled hproject).2).changed value setting
    have hanswer (other : String) : (get other reopened).result =
        .ok ((settingOf? other).bind (valueOf (changed config value setting))) := by
      rw [← hchanged]
      exact get_of_saved (s := reopened) rfl hread hfile hnormal hcovers (hsaved _ hloaded) other
    refine ⟨⟨setting, hsetting, ?_⟩, fun other hne => ?_⟩
    · rw [hanswer, hsetting, Option.bind_some, valueOf_changed]
    · rw [hanswer, get_of_ok hload]
      cases hother : settingOf? other with
      | none => rfl
      | some setting' =>
          have hdiffer : setting' ≠ setting := by
            rintro rfl
            exact hne (settingOf?_injective hsetting hother)
          rw [Option.bind_some, Option.bind_some, valueOf_changed_of_ne hsetting hother hdiffer]
  · rw [hkeeps, if_neg Bool.false_ne_true] at hfile
    have hsame : reopened = s := by
      rcases s with ⟨environment, store, loaded⟩
      obtain rfl : loaded = none := hnew
      show Settings.mk environment { store with project := reopened.store.project } none = _
      rw [hfile]
    rw [hsame]

namespace Sample

/-- All layers have something to say, and the project's file spells an extension with a dot. -/
def layered : Settings where
  environment := { extensions := some "mjs=javascript" }
  store :=
    { user := .text "languages:\n  extensions:\n    pyi: rust\n",
      project := .text "languages:\n  extensions:\n    .pyi: go\nhighlight: 5\n" }

def routed : Config where
  extensions := [("mjs", "javascript"), ("pyi", "go")]

def rerouted : Config where
  extensions := [("mjs", "typescript"), ("pyi", "go")]

end Sample

theorem survives_rerouted : Sample.rerouted.Survives := by
  have hdistinct : Distinct Sample.rerouted.extensions := by
    simp [Distinct, keys, Sample.rerouted]
  have hlegible : Sample.rerouted.isLegible = true := by decide +kernel
  refine ⟨_, ?_, Sample.rerouted.readsBack_parts⟩
  rw [Config.data_document _ .project hdistinct, hlegible, if_pos rfl]

theorem set_layered :
    let outcome := set "languages.extensions.mjs" " typescript" .project Sample.layered
    outcome.result = .ok none ∧ outcome.state.loaded = some Sample.rerouted := by
  have hload : (load Sample.layered).result = .ok Sample.routed := by decide +kernel
  have hstands :
      (change Sample.routed "languages.extensions.mjs" " typescript").refusal = none := by
    decide +kernel
  have hconfig : (change Sample.routed "languages.extensions.mjs" " typescript").config =
      Sample.rerouted := by
    decide +kernel
  rw [set_of_ok hload, hstands, hconfig]
  exact ⟨rfl, rfl⟩

theorem project_set_endures_layered :
    let outcome := set "languages.extensions.mjs" " typescript" .project Sample.layered
    let reopened : Settings :=
      { environment := Sample.layered.environment
        store := { Sample.layered.store with project := outcome.state.store.project } }
    (get "languages.extensions.mjs" reopened).result = .ok (some "typescript") ∧
      (get "languages.extensions.pyi" reopened).result =
        (get "languages.extensions.pyi" Sample.layered).result := by
  obtain ⟨hset, hloaded⟩ := set_layered
  have hnamed : settingOf? "languages.extensions.mjs" = some (.extension "mjs") := by
    decide +kernel
  have hstripped : kept " typescript" (.extension "mjs") = "typescript" := by decide +kernel
  obtain ⟨⟨setting, hsetting, hget⟩, hothers⟩ :=
    (@project_set_endures Sample.layered "languages.extensions.mjs" " typescript" rfl
      (by decide +kernel) (by decide +kernel) hset
      fun c hc => Option.some.inj (hloaded.symm.trans hc) ▸ survives_rerouted).1 rfl
  obtain rfl := Option.some.inj (hnamed.symm.trans hsetting)
  rw [hstripped] at hget
  exact ⟨hget, hothers _ (by decide)⟩

/-- A key of three parts that names an extension. -/
theorem settingOf?_extension {ext : String} (h : '.' ∉ ext.toList) :
    settingOf? (".".intercalate ["languages", "extensions", ext]) = some (.extension ext) := by
  have hdots : ∀ item ∈ ["languages", "extensions", ext], '.' ∉ item.toList := by
    intro item hitem
    simp only [List.mem_cons, List.not_mem_nil, or_false] at hitem
    rcases hitem with rfl | rfl | rfl
    · decide
    · decide
    · exact h
  have hfields : Text.fields '.' (".".intercalate ["languages", "extensions", ext]) = _ :=
    Text.fields_intercalate (List.cons_ne_nil _ _) hdots
  simp only [settingOf?, hfields]

/-- An extension that no built-in row has can be routed. -/
theorem change_of_free {key ext : String} (h : settingOf? key = some (.extension ext))
    (hfree : find? Config.builtinRoutes ext = none) :
    change {} key "go" = { config := { extensions := [(ext, "go")] }, refusal := none } := by
  have hstrip : Text.strip "go" = "go" := by decide +kernel
  have hgo : Language.ofName? "go" = some .go := by decide +kernel
  have hvalid : ({ extensions := [(ext, "go")] } : Config).extensionsProblem? = none := by
    rw [Config.extensionsProblem?, List.findSome?_singleton]
    simp only [Config.entryProblem?, hgo, hfree]
  have hinsert : Table.insert [] ext "go" = [(ext, "go")] := rfl
  rw [change_of_extension h, changeExtension, dropDots_of_settingOf? h, hstrip]
  simp only [hinsert, hvalid]

namespace Sample

/-- A file of the project that may be written but not read. -/
def withheld : Settings := { store := { project := .sealed } }

/-- The key of an extension that is written with ten characters for each of its own. -/
def escapedKey : String := ".".intercalate ["languages", "extensions", String.ofList faces]

/-- What becomes of the default configuration when that extension is routed. -/
def widened : Config where
  extensions := [(String.ofList faces, "go")]

end Sample

theorem settingOf?_escapedKey :
    settingOf? Sample.escapedKey = some (.extension (String.ofList Sample.faces)) := by
  refine settingOf?_extension ?_
  rw [String.toList_ofList]
  decide +kernel

theorem set_escapedKey :
    (set Sample.escapedKey "go" .project {}).result = .ok none ∧
      (set Sample.escapedKey "go" .project {}).state =
        { store := { project := .text Sample.widened.document }, loaded := some Sample.widened } := by
  have hfree : find? Config.builtinRoutes (String.ofList Sample.faces) = none := by
    have hkeys : (keys Config.builtinRoutes).all (·.toList != Sample.faces) = true := by
      decide +kernel
    refine Table.find?_eq_none_iff.mpr fun k hk => beq_eq_false_iff_ne.mpr ?_
    rintro rfl
    exact bne_iff_ne.mp (List.all_eq_true.mp hkeys _ hk) String.toList_ofList
  have hchange : change {} Sample.escapedKey "go" = { config := Sample.widened, refusal := none } :=
    change_of_free settingOf?_escapedKey hfree
  have hload : (load {}).result = .ok {} := by decide +kernel
  have hwrite (text : String) :
      (Settings.mk {} {} none).store.write .project text = ({ project := .text text }, none) := rfl
  rw [set_of_ok hload, hchange, hwrite]
  exact ⟨rfl, rfl⟩

/-- A change is made and not found again: in a file that cannot be read once it was written, and in
one whose key is too long for its line. -/
theorem project_set_is_lost :
    let unread := set "languages.extensions.mjs" "javascript" .project Sample.withheld
    let unreadable := set Sample.escapedKey "go" .project {}
    unread.result = .ok none ∧
      (get "languages.extensions.mjs" unread.state.fresh).result = .ok none ∧
      unreadable.result = .ok none ∧
      (get Sample.escapedKey unreadable.state.fresh).result = .ok none := by
  intro unread unreadable
  obtain ⟨hset, hstate⟩ := set_escapedKey
  refine ⟨by decide +kernel, by decide +kernel, hset, ?_⟩
  have hdistinct : Distinct Sample.widened.extensions := List.pairwise_singleton _ _
  have hlegible : Sample.widened.isLegible = false := by
    rw [Config.isLegible, Sample.widened, List.all_cons, fitsLine_faces, Bool.false_and]
  have hdata : (File.text Sample.widened.document).data .project =
      .ok ([], [.fileSkipped .project]) := by
    rw [Config.data_document _ .project hdistinct, hlegible, if_neg Bool.false_ne_true]
  have hdataOf : (File.text Sample.widened.document).dataOf .project = [] := by
    rw [File.dataOf, hdata]
  have hload : (load unreadable.state.fresh).result = .ok {} := by
    show (load (set Sample.escapedKey "go" .project {}).state.fresh).result = _
    rw [hstate]
    refine (load_of_new_iff rfl).mpr ⟨⟨[], rfl⟩, ⟨_, hdata.trans (by rw [← hdataOf]; rfl)⟩, ?_⟩
    show (Config.ofSection (Value.merge _ ((File.text Sample.widened.document).dataOf _))).1 = _
    rw [hdataOf]
    decide +kernel
  rw [get_of_ok hload, settingOf?_escapedKey]
  rfl

end Settings
end Polyglot
