/-
What a change for the user does in other projects.

Saving for the user puts the whole configuration that is in force into the user's file, also what
came from the project in which the change was made and from its environment.  All projects share
that file.  So the question for each of them is whether the configuration, laid over the environment
there, says of a setting what the user's file and that environment said before.

Of what is said below a project, its own file sees only the answers, as long as extensions below are
spelt as texts without dots in front and stand for no tables (`Config.IsPlain`): what it makes of them
is `overlaid`, by `valueOf_merge`.  A project that is silent on a setting passes the answer on.
-/
import Polyglot.Proofs.Settings.Durable

namespace Polyglot

open Table (find? keys contains Distinct)
open Value (WellKeyed)

theorem Scalar.eq_text_of_key {k : Scalar} {s : String} (h : k.key = .text s) : k = .text s := by
  cases k with
  | text t => exact congrArg Scalar.text (Scalar.Key.text.inj h)
  | float x => cases x <;> cases h
  | null | bool | int | date | moment | bytes => cases h

/-- What is no table is replaced as a whole. -/
theorem Value.override_of_old {old : Value} (h : old.kind ≠ .map) (v : Value) :
    v.override (some old) = v := by
  cases v with
  | map entries =>
      cases old with
      | map _ => exact absurd rfl h
      | scalar | list | set | pair | again => rfl
  | scalar | list | set | pair | again => rfl

namespace Layers

open Config (textKey isBareKey)

/-! ## Tables over tables that are spelt without dots -/

section Bare

variable {base upper : Section} {e : String}

theorem reads_of_isBareKey {k : Scalar} (h : isBareKey k = true) (e : String) :
    reads e k = (k == textKey e) := by
  obtain ⟨ext, rfl, hext⟩ := Config.exists_of_isBareKey h
  show (e == Text.dropDots ext) = _
  rw [Text.dropDots_of_isBare hext, Config.textKey_beq_textKey, BEq.comm]

theorem lastOf_eq_none {layer : Section} (h : ∀ k ∈ keys layer, reads e k = false) :
    lastOf e layer = none := by
  have hnone : layer.filter (fun entry => reads e entry.1) = [] :=
    List.filter_eq_nil_iff.mpr fun entry hentry =>
      Bool.eq_false_iff.mp (h entry.1 (List.mem_map_of_mem hentry))
  rw [lastOf, hnone]
  rfl

/-- Of the keys that read as an extension, a table without dots has one at most. -/
theorem contains_of_reads (hbare : ∀ k ∈ keys base, isBareKey k = true) {k : Scalar}
    (hreads : reads e k = true) :
    contains base k = ((k == textKey e) && contains base (textKey e)) := by
  by_cases hk : (k == textKey e) = true
  · rw [hk, Bool.true_and, contains, contains, Table.find?_congr hk]
  · rw [Bool.eq_false_iff.mpr hk, Bool.false_and]
    refine Bool.eq_false_iff.mpr fun hcontains => hk ?_
    obtain ⟨k', hk', hsame⟩ := Table.contains_iff.mp hcontains
    obtain ⟨ext, rfl, hext⟩ := Config.exists_of_isBareKey (hbare k' hk')
    obtain rfl := Scalar.eq_text_of_key (Scalar.beq_iff.mp hsame)
    exact (reads_of_isBareKey (hbare _ hk') e).symm.trans hreads

theorem getLast?_filter_reads (hbare : ∀ k ∈ keys base, isBareKey k = true)
    (hcontains : contains base (textKey e) = true) :
    ((keys base).filter (reads e)).getLast? = some (textKey e) := by
  obtain ⟨k, hk, hsame⟩ := Table.contains_iff.mp hcontains
  have hreads : reads e k = true := by
    rw [reads_of_isBareKey (hbare k hk), BEq.comm]
    exact hsame
  cases hlast : ((keys base).filter (reads e)).getLast? with
  | none =>
      rw [List.getLast?_eq_none_iff] at hlast
      exact absurd (List.mem_filter.mpr ⟨hk, hreads⟩) (hlast ▸ List.not_mem_nil)
  | some last =>
      obtain ⟨hmem, hlastReads⟩ := List.mem_filter.mp (List.mem_of_getLast? hlast)
      rw [reads_of_isBareKey (hbare last hmem)] at hlastReads
      exact congrArg some (Scalar.eq_text_of_key (Scalar.beq_iff.mp hlastReads))

/-- Where the table below has nothing for an extension, the upper table is on its own. -/
theorem lastOf_merge_of_none (hbase : Distinct base)
    (hbare : ∀ k ∈ keys base, isBareKey k = true) (hupper : Distinct upper)
    (hnone : find? base (textKey e) = none) :
    lastOf e (Value.merge base upper) = lastOf e upper := by
  have hmissing : ∀ k, reads e k = true → contains base k = false := by
    intro k hreads
    rw [contains_of_reads hbare hreads, Table.contains_eq_false_iff.mpr hnone, Bool.and_false]
  have hold : (keys base).filter (reads e) = [] := by
    refine List.filter_eq_nil_iff.mpr fun k hk hreads => ?_
    have hcontains : contains base k = true :=
      Table.contains_iff.mpr ⟨k, hk, BEq.rfl⟩
    rw [hmissing k hreads] at hcontains
    cases hcontains
  have hnew : ((keys upper).filter fun k => !contains base k).filter (reads e) =
      (keys upper).filter (reads e) := by
    rw [List.filter_filter]
    refine List.filter_congr fun k _ => ?_
    cases hreads : reads e k with
    | false => rfl
    | true => rw [hmissing k hreads]; rfl
  rw [lastOf_eq_bind (Value.distinct_merge hbase upper), lastOf_eq_bind hupper,
    Value.keys_merge base hupper, List.filter_append, hold, List.nil_append, hnew]
  cases hlast : ((keys upper).filter (reads e)).getLast? with
  | none => rfl
  | some k =>
      have hreads := (List.mem_filter.mp (List.mem_of_getLast? hlast)).2
      have hbelow := Table.contains_eq_false_iff.mp (hmissing k hreads)
      show find? (Value.merge base upper) k = find? upper k
      rw [Value.find?_merge base hupper, hbelow]
      cases find? upper k with
      | none => rfl
      | some v => exact congrArg some (Value.override_none v)

/-- Where the table below has the extension, its key keeps its place before all other spellings in
the upper table. -/
theorem lastOf_merge_of_some (hbase : Distinct base)
    (hbare : ∀ k ∈ keys base, isBareKey k = true) (hupper : Distinct upper) {v : Value}
    (hsome : find? base (textKey e) = some v) (hflat : v.kind ≠ .map) :
    lastOf e (Value.merge base upper) =
      ((lastOf e (upper.erase (textKey e))).or (find? upper (textKey e))).or (some v) := by
  have hcontains : contains base (textKey e) = true := by rw [contains, hsome, Option.isSome_some]
  have hshared : ∀ k, reads e k = true → contains base k = (k == textKey e) := by
    intro k hreads
    rw [contains_of_reads hbare hreads, hcontains, Bool.and_true]
  have hnew : ((keys upper).filter fun k => !contains base k).filter (reads e) =
      (keys (upper.erase (textKey e))).filter (reads e) := by
    rw [Table.keys_erase, List.filter_filter, List.filter_filter]
    refine List.filter_congr fun k _ => ?_
    cases hreads : reads e k with
    | false => rfl
    | true => rw [hshared k hreads]
  have herased : Distinct (upper.erase (textKey e)) := hupper.filter _
  rw [lastOf_eq_bind (Value.distinct_merge hbase upper), Value.keys_merge base hupper,
    List.filter_append, List.getLast?_append, getLast?_filter_reads hbare hcontains, hnew,
    lastOf_eq_bind herased]
  cases hlast : ((keys (upper.erase (textKey e))).filter (reads e)).getLast? with
  | none =>
      show find? (Value.merge base upper) (textKey e) = (find? upper (textKey e)).or (some v)
      rw [Value.find?_merge base hupper, hsome]
      cases find? upper (textKey e) with
      | none => rfl
      | some w => exact congrArg some (Value.override_of_old hflat w)
  | some k =>
      obtain ⟨hmem, hreads⟩ := List.mem_filter.mp (List.mem_of_getLast? hlast)
      have hother : (k == textKey e) = false := by
        rw [Table.keys_erase] at hmem
        simpa using (List.mem_filter.mp hmem).2
      have hbelow : find? base k = none := by
        rw [← Table.contains_eq_false_iff, hshared k hreads, hother]
      have hfound : ∃ w, find? (upper.erase (textKey e)) k = some w :=
        Option.isSome_iff_exists.mp (Table.contains_iff.mpr ⟨k, hmem, BEq.rfl⟩)
      obtain ⟨w, hw⟩ := hfound
      have hw' : find? upper k = some w := by
        rw [Table.find?_erase, hother] at hw
        exact hw
      show find? (Value.merge base upper) k = ((find? (upper.erase (textKey e)) k).or _).or _
      rw [Value.find?_merge base hupper, hbelow, hw', hw]
      exact congrArg some (Value.override_none w)

end Bare

end Layers

namespace Config

/-! ## Layers that are spelt plainly -/

/-- Every extension is a text without dots in front and stands for something else than a table. -/
def isPlain (data : Section) : Bool :=
  (aliases data).all fun (k, v) => isBareKey k && decide (v.kind ≠ .map)

/-- The same of data that may have been merged. -/
structure IsPlain (data : Section) : Prop where
  distinct : Distinct (aliases data)
  bare : isBare data = true
  flat : ∀ k v, find? (aliases data) k = some v → v.kind ≠ .map

theorem isPlain_of_wellKeyed {data : Section} (hdata : WellKeyed (.map data))
    (h : isPlain data = true) : IsPlain data where
  distinct := distinct_aliases hdata
  bare := by
    refine List.all_eq_true.mpr fun k hk => ?_
    obtain ⟨entry, hentry, rfl⟩ := List.mem_map.mp hk
    exact (Bool.and_eq_true_iff.mp (List.all_eq_true.mp h entry hentry)).1
  flat := by
    intro k v hfind
    obtain ⟨k', -, hmem⟩ := Table.mem_of_find? hfind
    exact of_decide_eq_true (Bool.and_eq_true_iff.mp (List.all_eq_true.mp h _ hmem)).2

theorem IsPlain.merge {base upper : Section} (hbase : IsPlain base) (hupper : IsPlain upper)
    (hkeyed : WellKeyed (.map upper)) : IsPlain (Value.merge base upper) where
  distinct := distinct_aliases_merge hkeyed hbase.distinct
  bare := isBare_merge hkeyed hbase.bare hupper.bare
  flat := by
    intro k v hfind
    rw [aliases_merge base hkeyed] at hfind
    split at hfind
    · rw [Value.find?_merge _ (distinct_aliases hkeyed)] at hfind
      split at hfind
      · rename_i w hw
        have hkind := hupper.flat k w hw
        rw [Layers.override_of_kind hkind, Option.some.injEq] at hfind
        exact hfind ▸ hkind
      · exact hbase.flat k v hfind
    · cases hfind

theorem flat_map_aliasEntry (t : Table String String) (k : Scalar) (v : Value)
    (h : find? (t.map aliasEntry) k = some v) : v.kind ≠ .map := by
  obtain ⟨k', -, hmem⟩ := Table.mem_of_find? h
  obtain ⟨entry, -, hentry⟩ := List.mem_map.mp hmem
  obtain ⟨-, rfl⟩ := Prod.mk.inj hentry
  exact fun hkind => by cases hkind

theorem isPlain_environment (e : Environment) : IsPlain e.data where
  distinct := e.distinct_aliases
  bare := e.isBare_data
  flat := by
    intro k v hfind
    rw [e.aliases_data] at hfind
    split at hfind
    · exact flat_map_aliasEntry _ k v hfind
    · cases hfind

theorem IsNormal.isPlain_of_readsBack {c : Config} {data : Section} (hc : c.IsNormal)
    (hdata : WellKeyed (.map data)) (h : c.ReadsBack data) : IsPlain data := by
  obtain ⟨-, table, hperm, haliases⟩ := aliases_of_readsBack hdata h
  refine ⟨distinct_aliases hdata, ?_, ?_⟩
  · refine List.all_eq_true.mpr fun k hk => ?_
    rw [haliases, keys, List.map_map] at hk
    obtain ⟨entry, hentry, rfl⟩ := List.mem_map.mp hk
    exact hc.bare entry.1 (List.mem_map_of_mem (hperm.mem_iff.mp hentry))
  · rw [haliases]
    exact flat_map_aliasEntry table

/-- In data that is spelt plainly, an extension is found under its own name. -/
theorem IsPlain.find?_extensions {data : Section} (h : IsPlain data) (e : String) :
    find? (ofSection data).1.extensions e =
      (find? (aliases data) (textKey e)).map Value.plain := by
  rw [extensions_ofSection, Layers.find?_ofList_map,
    Layers.lastOf_eq_find? h.distinct fun k hk =>
      Layers.reads_of_isBareKey (List.all_eq_true.mp h.bare k hk) e]

end Config

theorem File.wellKeyed_of_data {layer : Layer} {f : File} {data : Section} {notices : List Notice}
    (h : f.data layer = .ok (data, notices)) : WellKeyed (.map data) := by
  have hkeyed := f.wellKeyed_dataOf layer
  rw [File.dataOf, h] at hkeyed
  exact hkeyed

namespace Settings

open Config (aliases isTabled isTableAt tableAt textKey ofSection IsPlain)

/-! ## What a project makes of what is said below it -/

/-- The data of a project says nothing about a setting and hides nothing of what is said below. -/
def isSilent (p : Section) : Setting → Bool
  | .extension ext => isTabled p && !(keys (aliases p)).any (Layers.reads (Text.dropDots ext))
  | .names => isTableAt p "highlight" && !contains (tableAt p "highlight") (textKey "names")

/-- The last word on an extension, in a table over an answer from below.  What is known below keeps
its place there, so a table that spells it in several ways is heard on that spelling first. -/
def lastWord (layer : Section) (e : String) : Option String → Option String
  | none => (Layers.lastOf e layer).map Value.plain
  | some name =>
      (((Layers.lastOf e (layer.erase (textKey e))).or (find? layer (textKey e))).map
        Value.plain).or (some name)

/-- The answer about a setting in a project, by its data and the answer of the layers below. -/
def overlaid (p : Section) (below : Option String) : Setting → Option String
  | .extension ext =>
      if isTabled p then lastWord (aliases p) (Text.dropDots ext) below else none
  | .names => if isSilent p .names then below else valueOf (ofSection p).1 .names

section Overlay

variable {base p : Section}

theorem find?_merge_extensions (hp : WellKeyed (.map p)) (hbase : IsPlain base) (ext : String) :
    find? (ofSection (Value.merge base p)).1.extensions (Text.dropDots ext) =
      overlaid p (find? (ofSection base).1.extensions (Text.dropDots ext)) (.extension ext) := by
  have hbare : ∀ k ∈ keys (aliases base), Config.isBareKey k = true :=
    List.all_eq_true.mp hbase.bare
  have hupper := Config.distinct_aliases hp
  rw [hbase.find?_extensions, Config.extensions_ofSection, Layers.find?_ofList_map,
    Config.aliases_merge base hp, overlaid]
  cases isTabled p with
  | false => rfl
  | true =>
      rw [if_pos rfl, if_pos rfl]
      cases hfind : find? (aliases base) (textKey (Text.dropDots ext)) with
      | none => rw [Layers.lastOf_merge_of_none hbase.distinct hbare hupper hfind]; rfl
      | some v =>
          rw [Layers.lastOf_merge_of_some hbase.distinct hbare hupper hfind (hbase.flat _ v hfind),
            Option.map_or]
          rfl

theorem names_merge_of_silent (hp : WellKeyed (.map p)) (h : isSilent p .names = true)
    (base : Section) :
    (ofSection (Value.merge base p)).1.names = (ofSection base).1.names := by
  obtain ⟨htable, hmissing⟩ := Bool.and_eq_true_iff.mp h
  have hdistinct := (Config.wellKeyed_tableAt hp "highlight").distinct
  have hnone : find? (tableAt p "highlight") (textKey "names") = none :=
    Table.contains_eq_false_iff.mp (by simpa using hmissing)
  have hfind : find? (tableAt (Value.merge base p) "highlight") (textKey "names") =
      find? (tableAt base "highlight") (textKey "names") := by
    rw [Config.tableAt_merge base hp, if_pos htable, Value.find?_merge _ hdistinct, hnone]
  rw [Config.names_ofSection, Config.names_ofSection, Config.namesOf, Config.namesOf, hfind]

/-- Names in the data of a project, and anything that stands in their way, go before those below. -/
theorem names_merge_of_not_silent (hp : WellKeyed (.map p)) (h : isSilent p .names = false)
    (base : Section) : (ofSection (Value.merge base p)).1.names = (ofSection p).1.names := by
  have hdistinct := (Config.wellKeyed_tableAt hp "highlight").distinct
  rw [Config.names_ofSection, Config.names_ofSection, Config.tableAt_merge base hp]
  cases htable : isTableAt p "highlight" with
  | false =>
      rw [Config.tableAt_of_not_isTableAt htable]
      rfl
  | true =>
      rw [isSilent, htable, Bool.true_and, Bool.not_eq_false'] at h
      obtain ⟨v, hv⟩ := Option.isSome_iff_exists.mp h
      rw [if_pos rfl, Config.namesOf, Config.namesOf, Value.find?_merge _ hdistinct, hv]
      -- A table in the place of the names is ignored, merged or not.
      cases v with
      | map entries => cases find? (tableAt base "highlight") (textKey "names") with
          | none => rfl
          | some old => cases old <;> rfl
      | scalar | list | set | pair | again => rfl

/-- Over layers that are spelt plainly, the data of a project sees only their answer. -/
theorem valueOf_merge (hp : WellKeyed (.map p)) (hbase : IsPlain base) (setting : Setting) :
    valueOf (ofSection (Value.merge base p)).1 setting =
      overlaid p (valueOf (ofSection base).1 setting) setting := by
  cases setting with
  | extension ext => exact find?_merge_extensions hp hbase ext
  | names =>
      rw [overlaid]
      cases hsilent : isSilent p .names with
      | true =>
          rw [if_pos rfl, valueOf, valueOf, names_merge_of_silent hp hsilent]
      | false =>
          rw [if_neg Bool.false_ne_true, valueOf, valueOf, names_merge_of_not_silent hp hsilent]

/-- A table without a spelling of an extension has no word on it. -/
theorem lastWord_of_unread {layer : Section} {e : String} (he : Text.isBare e = true)
    (h : ∀ k ∈ keys layer, Layers.reads e k = false) (below : Option String) :
    lastWord layer e below = below := by
  cases below with
  | none => rw [lastWord, Layers.lastOf_eq_none h, Option.map_none]
  | some name =>
      have herased : ∀ k ∈ keys (layer.erase (textKey e)), Layers.reads e k = false := by
        intro k hk
        rw [Table.keys_erase] at hk
        exact h k (List.mem_filter.mp hk).1
      have hfind : find? layer (textKey e) = none := by
        refine Table.find?_eq_none_iff.mpr fun k hk => Bool.eq_false_iff.mpr fun hsame => ?_
        obtain rfl := Scalar.eq_text_of_key (Scalar.beq_iff.mp (BEq.symm hsame))
        have hreads : Layers.reads e (textKey e) = true :=
          beq_iff_eq.mpr (Text.dropDots_of_isBare he).symm
        rw [show Layers.reads e (textKey e) = false from h _ hk] at hreads
        cases hreads
      rw [lastWord, Layers.lastOf_eq_none herased, hfind]
      rfl

theorem overlaid_of_silent {setting : Setting} (h : isSilent p setting = true)
    (below : Option String) : overlaid p below setting = below := by
  cases setting with
  | names => rw [overlaid, if_pos h]
  | extension ext =>
      obtain ⟨htabled, hunread⟩ := Bool.and_eq_true_iff.mp h
      rw [overlaid, if_pos htabled]
      exact lastWord_of_unread (Text.isBare_dropDots ext) (by simpa using hunread) below

/-- A project that is silent on a setting passes on what is said below, if it has no data at all or if
the layers below are spelt plainly. -/
theorem valueOf_merge_of_silent (hp : WellKeyed (.map p)) (hbase : p = [] ∨ IsPlain base)
    {setting : Setting} (hsilent : isSilent p setting = true) :
    valueOf (ofSection (Value.merge base p)).1 setting = valueOf (ofSection base).1 setting := by
  rcases hbase with rfl | hplain
  · rw [Value.merge]
  · rw [valueOf_merge hp hplain, overlaid_of_silent hsilent]

end Overlay

/-- A saved configuration answers for itself, and where it has no answer the environment does. -/
theorem valueOf_merge_of_readsBack {c : Config} {data : Section} (hc : c.IsNormal)
    (hdata : WellKeyed (.map data)) (h : c.ReadsBack data) (e : Environment) (setting : Setting) :
    valueOf (ofSection (Value.merge e.data data)).1 setting =
      (valueOf c setting).or (valueOf (ofSection e.data).1 setting) := by
  cases setting with
  | names =>
      rw [valueOf, Config.names_reload hc hdata h]
      rfl
  | extension ext =>
      have hplain := Config.isPlain_environment e
      have hmerged := hplain.merge (hc.isPlain_of_readsBack hdata h) hdata
      obtain ⟨htabled, table, hperm, haliases⟩ := Config.aliases_of_readsBack hdata h
      rw [valueOf, valueOf, valueOf, hmerged.find?_extensions, hplain.find?_extensions,
        Config.aliases_merge _ hdata, if_pos htabled,
        Value.find?_merge _ (Config.distinct_aliases hdata), haliases, Config.find?_map_aliasEntry,
        ← Table.find?_perm hc.distinct hperm.symm]
      cases find? c.extensions (Text.dropDots ext) with
      | none => rfl
      | some name => rfl

/-! ## Other projects -/

/-- The same project with another file of the user. -/
def withUser (o : Settings) (file : File) : Settings :=
  { o with store := { o.store with user := file } }

/-- What is said about a setting below the project. -/
def saidBelow (o : Settings) (setting : Setting) : Option String :=
  valueOf (ofSection o.below).1 setting

/-- What a configuration says about a setting in the place of the user's file: its own answer, and
where it has none that of the environment. -/
def saidBy (c : Config) (e : Environment) (setting : Setting) : Option String :=
  (valueOf c setting).or (valueOf (ofSection e.data).1 setting)

/-- The data of a file that holds a text does not depend on the place of the file, unless there is
something to say about it. -/
theorem data_text_of_silent {text : String} {data : Section} {layer : Layer}
    (h : (File.text text).data layer = .ok (data, [])) (layer' : Layer) :
    (File.text text).data layer' = .ok (data, []) := by
  rw [File.data] at h ⊢
  split at h
  · cases h
  · cases h
  · exact h
  · split at h
    · rename_i hvoid
      rw [if_pos hvoid]
      exact h
    · cases h

section Look

variable {o : Settings} (hnew : o.loaded = none)
  (huser : ∃ notices, o.store.user.data .user = .ok (o.store.user.dataOf .user, notices))
include hnew huser

theorem get_of_broken {fault : Fault} (hp : o.store.project.data .project = .error fault)
    (key : String) : (get key o).result = .error fault := by
  obtain ⟨notices, hu⟩ := huser
  have hload : (load o).result = .error fault := by
    rw [load_of_new hnew, Store.load, hu, hp]
  rw [get, Action.bind_of_error hload]

/-- A new look at a setting comes to what the project makes of the layers below. -/
theorem get_of_project {p : Section} {notices : List Notice}
    (hp : o.store.project.data .project = .ok (p, notices)) (key : String) :
    (get key o).result =
      .ok ((settingOf? key).bind (valueOf (ofSection (Value.merge o.below p)).1)) := by
  have hdataOf : o.store.project.dataOf .project = p := by rw [File.dataOf, hp]
  refine get_of_ok ((load_of_new_iff hnew).mpr ⟨huser, ⟨notices, ?_⟩, ?_⟩) key
  · rw [hdataOf, hp]
  · rw [hdataOf]

end Look

section Saved

variable {c : Config} (hc : c.IsNormal) (hsaved : c.Survives) (o : Settings)
include hc hsaved

/-- With a saved configuration in the place of the user's file, the layers below a project are spelt
plainly and give the configuration's answers. -/
theorem below_withUser :
    (∃ notices, (o.withUser (.text c.document)).store.user.data .user =
      .ok ((o.withUser (.text c.document)).store.user.dataOf .user, notices)) ∧
    IsPlain (o.withUser (.text c.document)).below ∧
    ∀ setting, saidBelow (o.withUser (.text c.document)) setting =
      saidBy c o.environment setting := by
  obtain ⟨data, hproject, hreads⟩ := hsaved
  have hdata : (File.text c.document).data .user = .ok (data, []) :=
    data_text_of_silent hproject .user
  have hdataOf : (File.text c.document).dataOf .user = data := by rw [File.dataOf, hdata]
  have hkeyed : WellKeyed (.map data) := hdataOf ▸ File.wellKeyed_dataOf .user _
  have hbelow : (o.withUser (.text c.document)).below = Value.merge o.environment.data data := by
    rw [below, ← hdataOf]
    rfl
  refine ⟨⟨[], ?_⟩, ?_, fun setting => ?_⟩
  · exact hdata.trans (by rw [← hdataOf]; rfl)
  · rw [hbelow]
    exact (Config.isPlain_environment _).merge (hc.isPlain_of_readsBack hkeyed hreads) hkeyed
  · rw [saidBelow, hbelow]
    exact valueOf_merge_of_readsBack hc hkeyed hreads _ setting

variable {o} {key : String} {setting : Setting} {p : Section} {notices : List Notice}
  (hnew : o.loaded = none)
  (huser : ∃ notices, o.store.user.data .user = .ok (o.store.user.dataOf .user, notices))
include hnew huser

/-- Keys that name no setting, and projects with a file that breaks, are answered as before. -/
theorem get_withUser_of_unanswered
    (h : settingOf? key = none ∨ ∃ fault, o.store.project.data .project = .error fault) :
    (get key (o.withUser (.text c.document))).result = (get key o).result := by
  obtain ⟨hread, -, -⟩ := below_withUser hc hsaved o
  have hnewAfter : (o.withUser (.text c.document)).loaded = none := hnew
  cases hp : o.store.project.data .project with
  | error fault => rw [get_of_broken hnew huser hp, get_of_broken hnewAfter hread hp]
  | ok found =>
      have hnone : settingOf? key = none := by
        refine h.resolve_right ?_
        rintro ⟨fault, hfault⟩
        rw [hp] at hfault
        cases hfault
      rw [get_of_project hnew huser hp, get_of_project hnewAfter hread hp, hnone, Option.bind_none,
        Option.bind_none]

/-- The answer in a project is as before just if what the project makes of the configuration's answer
is what it made of the layers below. -/
theorem get_withUser_eq_iff (hp : o.store.project.data .project = .ok (p, notices))
    (hsetting : settingOf? key = some setting) :
    (get key (o.withUser (.text c.document))).result = (get key o).result ↔
      overlaid p (saidBy c o.environment setting) setting =
        valueOf (ofSection (Value.merge o.below p)).1 setting := by
  obtain ⟨hread, hplain, hsaid⟩ := below_withUser hc hsaved o
  have hnewAfter : (o.withUser (.text c.document)).loaded = none := hnew
  rw [get_of_project hnew huser hp, get_of_project hnewAfter hread hp, hsetting, Option.bind_some,
    Option.bind_some, valueOf_merge (File.wellKeyed_of_data hp) hplain, ← hsaid, saidBelow,
    Except.ok.injEq]

end Saved

theorem isPlain_below {o : Settings} (h : Config.isPlain (o.store.user.dataOf .user) = true) :
    IsPlain o.below := by
  have hkeyed := o.store.user.wellKeyed_dataOf .user
  exact (Config.isPlain_environment _).merge (Config.isPlain_of_wellKeyed hkeyed h) hkeyed

/-- What the environment says is also said below the project, in its own words or those of the
user's file, if that file does not hide it. -/
theorem saidBelow_or_environment {s : Settings}
    (htabled : s.store.user.isTabled .user = true) (setting : Setting) :
    (saidBelow s setting).or (valueOf (ofSection s.environment.data).1 setting) =
      saidBelow s setting := by
  rw [saidBelow, below, valueOf_merge (File.wellKeyed_dataOf .user _)
    (Config.isPlain_environment s.environment)]
  cases setting with
  | names =>
      rw [overlaid]
      split
      · exact Option.or_self
      · rfl
  | extension ext =>
      rw [overlaid, if_pos (File.data_of_isTabled htabled).2]
      cases valueOf (ofSection s.environment.data).1 (.extension ext) with
      | none => exact Option.or_none
      | some name => rw [lastWord, Option.or_assoc, Option.or_self]

/-- A change for the user makes the configuration that is in force in one project the user's layer in
all of them.  Another project that is silent on a setting, above all one without a file, keeps its
answer just if that configuration, with the environment there below it, says what was said below the
project before; and if it does, every project keeps its answer, provided that the user's file was
spelt plainly.  It does if the environments are the same and the project in which the change was made
is silent on the setting itself.  A file of the user that keeps no texts brings nothing to other
projects. -/
theorem user_set_reaches_projects {s : Settings} {key value : String} (hnew : s.loaded = none)
    (hset : (set key value .user s).result = .ok none)
    (hsaved : ∀ c, (set key value .user s).state.loaded = some c → c.Survives) :
    ∃ c, (load s).result = .ok c ∧
      ∀ (o : Settings) (other : String), o.loaded = none → o.store.user = s.store.user →
        let user := s.store.user.dataOf .user
        let project := s.store.project.dataOf .project
        let after := o.withUser (set key value .user s).state.store.user
        let kept := (get other after).result = (get other o).result
        (s.store.user.keepsTexts = false → kept) ∧
        (s.store.user.keepsTexts = true → other ≠ key →
          ((settingOf? other = none ∨ ∃ fault, o.store.project.data .project = .error fault) →
            kept) ∧
          ∀ setting p notices, settingOf? other = some setting →
            o.store.project.data .project = .ok (p, notices) →
            let agrees := saidBy c o.environment setting = saidBelow o setting
            (isSilent p setting = true → (p = [] ∨ Config.isPlain user = true) →
              (kept ↔ agrees)) ∧
            (Config.isPlain user = true → agrees → kept) ∧
            (o.environment = s.environment → s.store.user.isTabled .user = true →
              isSilent project setting = true → (project = [] ∨ Config.isPlain user = true) →
                agrees)) := by
  obtain ⟨config, hload, hstands, hloaded, hfile⟩ := of_set_ok hset
  obtain ⟨target, htarget, hchanged⟩ := change_stands hstands
  obtain ⟨hread, -, hconfig⟩ := (load_of_new_iff hnew).mp hload
  have hnormal : (change config key value).config.IsNormal :=
    Config.isNormal_change (hconfig ▸ Config.isNormal_ofSection _) hstands
  have hsaves := hsaved _ hloaded
  have hwritten : (set key value .user s).state.store.user =
      if s.store.user.keepsTexts then .text (change config key value).config.document
      else s.store.user := hfile.trans (File.written_eq _ _)
  refine ⟨config, hload, fun o other honew huser => ⟨fun hkeeps => ?_, fun hkeeps hne => ?_⟩⟩
  · rw [hwritten, hkeeps, if_neg Bool.false_ne_true, ← huser]
    rfl
  rw [hwritten, hkeeps, if_pos rfl]
  have hreado := huser ▸ hread
  refine ⟨get_withUser_of_unanswered hnormal hsaves honew hreado, ?_⟩
  intro setting p notices hsetting hp
  have hother : setting ≠ target := by
    rintro rfl
    exact hne (settingOf?_injective htarget hsetting)
  have hkept := get_withUser_eq_iff hnormal hsaves honew hreado hp hsetting
  rw [saidBy, hchanged, valueOf_changed_of_ne htarget hsetting hother, ← saidBy, ← hchanged] at hkept
  have hkeyed := File.wellKeyed_of_data hp
  refine ⟨fun hsilent hq => ?_, fun hq hagrees => ?_, fun henv htabled hsilent hq => ?_⟩
  · have hbelow : p = [] ∨ IsPlain o.below := hq.imp_right fun h => isPlain_below (huser ▸ h)
    rw [hkept, overlaid_of_silent hsilent, valueOf_merge_of_silent hkeyed hbelow hsilent]
    rfl
  · rw [hkept, valueOf_merge hkeyed (isPlain_below (huser ▸ hq)), hagrees]
    rfl
  · -- What is in force there is what is said below there, and below that is the same everywhere.
    have hsame : saidBelow o setting = saidBelow s setting := by
      rw [saidBelow, saidBelow, below, below, huser, henv]
    have hvalue : valueOf config setting = saidBelow s setting := by
      rw [← hconfig]
      exact valueOf_merge_of_silent (File.wellKeyed_dataOf .project _)
        (hq.imp_right isPlain_below) hsilent
    rw [hsame, saidBy, hvalue, henv, saidBelow_or_environment htabled]

namespace Sample

def routing : File := .text "languages:\n  extensions:\n    pyi: python\nhighlight:\n  names: [a]\n"

/-- The user's file says something, and the project's file something else. -/
def reserved : Settings where
  store :=
    { user := routing,
      project := .text "languages:\n  extensions:\n    mjs: typescript\n" }

/-- Another project, with an extension of the user's file that it spells with a dot. -/
def dotted : Settings where
  store :=
    { user := routing,
      project := .text "languages:\n  extensions:\n    .pyi: rust\n" }

/-- All that is said is said in the project's file. -/
def outspoken : Settings where
  store := { project := routing }

def inForce : Config where
  extensions := [("pyi", "python"), ("mjs", "typescript")]
  names := ["a"]

def spread : Config where
  extensions := [("pyi", "python"), ("mjs", "javascript")]
  names := ["a"]

end Sample

theorem survives_spread : Sample.spread.Survives := by
  have hdistinct : Distinct Sample.spread.extensions := by
    simp [Distinct, keys, Sample.spread]
  have hlegible : Sample.spread.isLegible = true := by decide +kernel
  refine ⟨_, ?_, Sample.spread.readsBack_parts⟩
  rw [Config.data_document _ .project hdistinct, hlegible, if_pos rfl]

theorem set_reserved :
    let outcome := set "languages.extensions.mjs" "javascript" .user Sample.reserved
    outcome.result = .ok none ∧ outcome.state.loaded = some Sample.spread := by
  have hload : (load Sample.reserved).result = .ok Sample.inForce := by decide +kernel
  have hstands :
      (change Sample.inForce "languages.extensions.mjs" "javascript").refusal = none := by
    decide +kernel
  have hconfig : (change Sample.inForce "languages.extensions.mjs" "javascript").config =
      Sample.spread := by
    decide +kernel
  rw [set_of_ok hload, hstands, hconfig]
  exact ⟨rfl, rfl⟩

theorem user_set_reaches_projects_dotted :
    let outcome := set "languages.extensions.mjs" "javascript" .user Sample.reserved
    (get "languages.extensions.pyi" (Sample.dotted.withUser outcome.state.store.user)).result =
      (get "languages.extensions.pyi" Sample.dotted).result := by
  obtain ⟨hset, hloaded⟩ := set_reserved
  obtain ⟨c, -, hprojects⟩ :=
    @user_set_reaches_projects Sample.reserved "languages.extensions.mjs" "javascript" rfl hset
      fun c hc => Option.some.inj (hloaded.symm.trans hc) ▸ survives_spread
  have hsetting : settingOf? "languages.extensions.pyi" = some (.extension "pyi") := by
    decide +kernel
  have htabled : Sample.dotted.store.project.isTabled .project = true := by decide +kernel
  obtain ⟨⟨notices, hp⟩, -⟩ := File.data_of_isTabled htabled
  have hplain : Config.isPlain (Sample.reserved.store.user.dataOf .user) = true := by
    decide +kernel
  obtain ⟨-, hkeeps, hagrees⟩ :=
    ((hprojects Sample.dotted "languages.extensions.pyi" rfl rfl).2 rfl (by decide)).2
      _ _ _ hsetting hp
  exact hkeeps hplain (hagrees rfl (by decide +kernel) (by decide +kernel) (.inr hplain))

/-- What only one project's file says is said in all projects after a change for the user of something
else. -/
theorem user_set_tells_of_project :
    let outcome := set "languages.extensions.mjs" "javascript" .user Sample.outspoken
    let after : Settings := withUser {} outcome.state.store.user
    outcome.result = .ok none ∧
      (get "languages.extensions.pyi" {}).result = .ok none ∧
      (get "languages.extensions.pyi" after).result = .ok (some "python") := by
  decide +kernel

end Settings

end Polyglot
