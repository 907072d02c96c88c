/-
What becomes of the configuration in force and of the files when a setting is changed.

`set` puts the changed configuration in force before it knows whether the change stands, and takes
it back by hand.  `set_of_ok` says what a call comes to, and `change_refused` what is left of a
change that was refused: the names are as before, and an extension that was to be routed is gone,
also if it had an alias.  A change that cannot be saved stays in force, and a file that was emptied
to be written again may be left with the beginning of its text (`Store.write_fails`).
`unsuccessful_set` puts this together and says just when the configuration is the one from before.
-/
import Mathlib.Data.List.Basic
import Polyglot.Proofs.Action
import Polyglot.Proofs.Table
import Polyglot.Settings

namespace Polyglot

/-! ## Writing -/

namespace Store

variable {s after : Store} {layer : Layer} {text : String}

/-- The file was emptied, and there was room for no more than the beginning of its new text. -/
def IsCut (s : Store) (layer : Layer) (text : String) (after : Store) : Prop :=
  ∃ n, s.room = .upTo n ∧ n < text.length ∧
    after = s.put layer ((s.file layer).written (String.ofList (text.toList.take n)))

theorem write_succeeds (h : s.write layer text = (after, none)) :
    after = s.put layer ((s.file layer).written text) := by
  rw [write] at h
  split at h
  · cases h
  · cases h
  · exact (Prod.mk.inj h).1.symm
  · split at h
    · exact (Prod.mk.inj h).1.symm
    · cases h

/-- What cannot be written is not touched, or is cut. -/
theorem write_fails {fault : FileFault} (h : s.write layer text = (after, some fault)) :
    (fault ≠ .full ∧ after = s) ∨ (fault = .full ∧ s.IsCut layer text after) := by
  rw [write] at h
  split at h
  · rename_i fault' hrefusal
    obtain ⟨rfl, hfault⟩ := Prod.mk.inj h
    obtain rfl := Option.some.inj hfault
    refine .inl ⟨?_, rfl⟩
    rintro rfl
    cases hfile : s.file layer <;> rw [hfile] at hrefusal <;> cases hrefusal
  · obtain ⟨rfl, hfault⟩ := Prod.mk.inj h
    obtain rfl := Option.some.inj hfault
    exact .inl ⟨nofun, rfl⟩
  · cases h
  · rename_i n _ hroom
    split at h
    · cases h
    · rename_i hlong
      obtain ⟨rfl, hfault⟩ := Prod.mk.inj h
      simp only [Bool.or_eq_true, decide_eq_true_eq, not_or, Nat.not_le] at hlong
      exact .inr ⟨(Option.some.inj hfault).symm, n, hroom, hlong.1, rfl⟩

end Store

namespace Settings

/-! ## What each action comes to -/

theorem load_of_loaded {s : Settings} {config : Config} (h : s.loaded = some config) :
    load s = { result := .ok config, state := s, notices := [] } := by
  rw [load, Action.bind_of_ok (a := s) rfl]
  simp only [Action.state, h]
  rfl

theorem load_of_new {s : Settings} (h : s.loaded = none) :
    load s =
      match (s.store.load s.environment).result with
      | .error fault =>
          { result := .error fault, state := s, notices := (s.store.load s.environment).notices }
      | .ok config =>
          { result := .ok config, state := { s with loaded := some config },
            notices := (s.store.load s.environment).notices } := by
  rw [load, Action.bind_of_ok (a := s) rfl]
  simp only [Action.state, h]
  cases hresult : (s.store.load s.environment).result with
  | error fault =>
      rw [Action.bind_of_error (e := fault) hresult]
      rfl
  | ok config =>
      rw [Action.bind_of_ok (a := config) hresult]
      show Outcome.mk _ _ ([] ++ (_ ++ ([] ++ []))) = _
      simp only [List.nil_append, List.append_nil]
      rfl

/-- Loading puts what it gives in force and changes nothing else. -/
theorem load_state_of_ok {s : Settings} {config : Config} (h : (load s).result = .ok config) :
    (load s).state = { s with loaded := some config } := by
  cases hloaded : s.loaded with
  | some held =>
      rw [load_of_loaded hloaded] at h ⊢
      have hheld : held = config := Except.ok.inj h
      show s = { s with loaded := some config }
      rw [← hheld, ← hloaded]
  | none =>
      rw [load_of_new hloaded] at h ⊢
      cases hresult : (s.store.load s.environment).result with
      | error fault =>
          rw [hresult] at h
          cases h
      | ok found =>
          rw [hresult] at h
          have hfound : found = config := Except.ok.inj h
          rw [hfound]

theorem load_state_of_error {s : Settings} {fault : Fault} (h : (load s).result = .error fault) :
    (load s).state = s := by
  cases hloaded : s.loaded with
  | some held => rw [load_of_loaded hloaded]
  | none =>
      rw [load_of_new hloaded] at h ⊢
      cases hresult : (s.store.load s.environment).result with
      | error fault => rfl
      | ok found =>
          rw [hresult] at h
          cases h

/-- What is saved is put in force.  What cannot be saved may all the same have changed the file. -/
theorem save_eq (layer : Layer) (config : Config) (s : Settings) :
    save layer config s =
      match s.store.write layer config.document with
      | (store, some fault) =>
          { result := .error (.file fault), state := { s with store }, notices := [] }
      | (store, none) =>
          { result := .ok (), state := { s with store, loaded := some config },
            notices := [] } := by
  simp only [save, bind, Action.bind, Action.state, Action.replace]
  rcases s.store.write layer config.document with ⟨store, _ | fault⟩ <;> rfl

theorem set_of_error {s : Settings} {fault : Fault} (h : (load s).result = .error fault)
    (key value : String) (layer : Layer) :
    set key value layer s =
      { result := .error fault, state := s, notices := (load s).notices } := by
  rw [set, Action.bind_of_error h, load_state_of_error h]

/-- The changed configuration is in force whether the change stands or not. -/
theorem set_of_ok {s : Settings} {config : Config} (h : (load s).result = .ok config)
    (key value : String) (layer : Layer) :
    set key value layer s =
      let changed := { s with loaded := some (change config key value).config }
      match (change config key value).refusal with
      | some refusal =>
          { result := .ok (some refusal), state := changed, notices := (load s).notices }
      | none =>
          match s.store.write layer (change config key value).config.document with
          | (store, some fault) =>
              { result := .error (.file fault), state := { changed with store },
                notices := (load s).notices }
          | (store, none) =>
              { result := .ok none, state := { changed with store },
                notices := (load s).notices } := by
  have hkeep (c c' : Config) : keep c { s with loaded := some c' } =
      { result := .ok (), state := { s with loaded := some c }, notices := [] } := rfl
  rw [set, Action.bind_of_ok h, load_state_of_ok h, Action.bind_of_ok (a := ()) rfl, hkeep]
  cases (change config key value).refusal with
  | some refusal =>
      show Outcome.mk _ _ (_ ++ ([] ++ [])) = _
      simp only [List.append_nil]
      rfl
  | none =>
      simp only
      rcases hwrite : s.store.write layer (change config key value).config.document with
        ⟨store, _ | fault⟩
      · rw [Action.bind_of_ok (a := ()) (by rw [save_eq, hwrite]), save_eq, hwrite]
        show Outcome.mk _ _ (_ ++ ([] ++ ([] ++ []))) = _
        simp only [List.append_nil]
        rfl
      · rw [Action.bind_of_error (e := .file fault) (by rw [save_eq, hwrite]), save_eq, hwrite]
        simp only [List.append_nil]

/-! ## What a key names -/

inductive Setting where
  | extension (ext : String)
  | names
deriving DecidableEq, Repr

/-- The setting that a key names, if it names one. -/
def settingOf? (key : String) : Option Setting :=
  match Text.fields '.' key with
  | ["languages", "extensions", ext] => some (.extension ext)
  | ["highlight", "names"] => some .names
  | _ => none

/-- What a setting would be changed to is what it is. -/
def holds (config : Config) (value : String) : Setting → Prop
  | .extension ext => Table.find? config.extensions (Text.dropDots ext) = some (Text.strip value)
  | .names => config.names = Config.parseNames value

theorem change_of_extension {key ext : String} (h : settingOf? key = some (.extension ext))
    (config : Config) (value : String) :
    change config key value = changeExtension config ext value := by
  rw [settingOf?] at h
  split at h
  · rename_i ext' hfields
    rw [Option.some.injEq, Setting.extension.injEq] at h
    simp only [change, hfields, h]
  · cases h
  · cases h

theorem change_of_names {key : String} (h : settingOf? key = some .names) (config : Config)
    (value : String) : change config key value = changeNames config value := by
  rw [settingOf?] at h
  split at h
  · cases h
  · rename_i hfields
    simp only [change, hfields]
  · cases h

/-- A key that names no setting changes nothing and is refused. -/
theorem change_of_none {key : String} (h : settingOf? key = none) (config : Config)
    (value : String) :
    (change config key value).config = config ∧
      ((change config key value).refusal).isSome = true := by
  rw [settingOf?] at h
  split at h
  · cases h
  · cases h
  · rename_i hextension hnames
    rw [change]
    split
    · rename_i rest hfields
      split
      · exact absurd hfields (hextension _)
      · exact ⟨rfl, rfl⟩
    · rename_i rest hfields
      split
      · exact absurd hfields hnames
      · exact ⟨rfl, rfl⟩
    · exact ⟨rfl, rfl⟩
    · exact ⟨rfl, rfl⟩

/-! ## Changes that are refused, and changes that stand -/

/-- What is left of a configuration when a change of a setting is refused. -/
def refused (config : Config) : Option Setting → Config
  | some (.extension ext) =>
      { config with extensions := config.extensions.erase (Text.dropDots ext) }
  | _ => config

/-- A configuration with a setting changed. -/
def changed (config : Config) (value : String) : Setting → Config
  | .extension ext =>
      { config with
        extensions := config.extensions.insert (Text.dropDots ext) (Text.strip value) }
  | .names => { config with names := Config.parseNames value }

theorem change_refused {config : Config} {key value : String} {refusal : Refusal}
    (h : (change config key value).refusal = some refusal) :
    (change config key value).config = refused config (settingOf? key) := by
  cases hsetting : settingOf? key with
  | none => exact (change_of_none hsetting config value).1
  | some setting =>
      cases setting with
      | extension ext =>
          rw [change_of_extension hsetting, changeExtension] at h ⊢
          dsimp only at h ⊢
          split at h
          · cases h
          · simp only [refused, Table.erase_insert_self]
      | names =>
          rw [change_of_names hsetting, changeNames] at h ⊢
          split at h
          · cases h
          · rfl

theorem change_stands {config : Config} {key value : String}
    (h : (change config key value).refusal = none) :
    ∃ setting, settingOf? key = some setting ∧
      (change config key value).config = changed config value setting := by
  cases hsetting : settingOf? key with
  | none =>
      have hrefusal := (change_of_none hsetting config value).2
      rw [h] at hrefusal
      cases hrefusal
  | some setting =>
      refine ⟨setting, rfl, ?_⟩
      cases setting with
      | extension ext =>
          rw [change_of_extension hsetting, changeExtension] at h ⊢
          dsimp only at h ⊢
          split at h
          · rfl
          · cases h
      | names =>
          rw [change_of_names hsetting, changeNames] at h ⊢
          split at h
          · rfl
          · cases h

/-- A refused change takes nothing away if there was no alias to take away. -/
theorem refused_eq_self_iff {config : Config} {setting? : Option Setting} :
    refused config setting? = config ↔
      ∀ ext, setting? = some (.extension ext) →
        Table.contains config.extensions (Text.dropDots ext) = false := by
  rcases config with ⟨extensions, names⟩
  rcases setting? with _ | ext | _
  · simp [refused]
  · simp [refused, Table.erase_eq_self_iff]
  · simp [refused]

theorem changed_eq_self_iff {config : Config} {value : String} {setting : Setting} :
    changed config value setting = config ↔ holds config value setting := by
  rcases config with ⟨extensions, names⟩
  cases setting with
  | extension ext => simp [changed, holds, Table.insert_eq_self_iff]
  | names => simp [changed, holds, eq_comm]

/-- A call that does not succeed leaves the environment alone, and the files unless there was no room
to write one of them.  If nothing could be loaded, all is as before.  If the change was refused, the
configuration in force keeps its names and loses the extension that was to be routed: it is the one
from before just if there was no alias for that extension.  If the change could not be saved, it is in
force all the same, so the configuration is the one from before just if it held the value already. -/
theorem unsuccessful_set (s : Settings) (key value : String) (layer : Layer)
    (h : (set key value layer s).result ≠ .ok none) :
    let after := (set key value layer s).state
    after.environment = s.environment ∧
      ((∃ fault, (load s).result = .error fault ∧ after = s) ∨
      ∃ config held, (load s).result = .ok config ∧ after.loaded = some held ∧
        ((∃ refusal, (set key value layer s).result = .ok (some refusal) ∧
            after.store = s.store ∧
            held = refused config (settingOf? key) ∧
            (held = config ↔ ∀ ext, settingOf? key = some (.extension ext) →
              Table.contains config.extensions (Text.dropDots ext) = false)) ∨
          ∃ fault setting, (set key value layer s).result = .error (.file fault) ∧
            ((fault ≠ .full ∧ after.store = s.store) ∨
              (fault = .full ∧ s.store.IsCut layer held.document after.store)) ∧
            settingOf? key = some setting ∧ held = changed config value setting ∧
            (held = config ↔ holds config value setting))) := by
  intro after
  cases hload : (load s).result with
  | error fault =>
      have hafter : after = s := congrArg Outcome.state (set_of_error hload key value layer)
      exact ⟨by rw [hafter], .inl ⟨fault, rfl, hafter⟩⟩
  | ok config =>
      have hset := set_of_ok hload key value layer
      cases hrefusal : (change config key value).refusal with
      | some refusal =>
          simp only [hrefusal] at hset
          have hafter : after = { s with loaded := some (change config key value).config } :=
            congrArg Outcome.state hset
          refine ⟨by rw [hafter], .inr ⟨config, _, rfl, by rw [hafter], .inl ?_⟩⟩
          rw [change_refused hrefusal]
          exact ⟨refusal, by rw [hset], by rw [hafter], rfl, refused_eq_self_iff⟩
      | none =>
          obtain ⟨setting, hsetting, hchanged⟩ := change_stands hrefusal
          simp only [hrefusal] at hset
          rcases hwrite : s.store.write layer (change config key value).config.document with
            ⟨store, _ | fault⟩
          · simp only [hwrite] at hset
            exact absurd (by rw [hset]) h
          · simp only [hwrite] at hset
            have hafter : after =
                { s with store, loaded := some (change config key value).config } :=
              congrArg Outcome.state hset
            refine ⟨by rw [hafter], .inr ⟨config, _, rfl, by rw [hafter], .inr ?_⟩⟩
            have hstore : after.store = store := by rw [hafter]
            rw [hstore]
            refine ⟨fault, setting, by rw [hset], Store.write_fails hwrite, hsetting, hchanged, ?_⟩
            rw [hchanged]
            exact changed_eq_self_iff

namespace Sample

/-- One alias in the project's file, and a place for the user's file that cannot be written. -/
def aliased : Settings where
  store :=
    { project := .text "languages:\n  extensions:\n    pyi: python\nhighlight:\n  names: [a]\n",
      user := .directory }

/-- The same, with room for a few characters. -/
def cramped : Settings := { aliased with store := { aliased.store with room := .upTo 16 } }

end Sample

/-- A refused alias for an extension that had none leaves all as it was. -/
theorem unsuccessful_set_of_new_extension :
    ∃ config, (load Sample.aliased).result = .ok config ∧
      (set "languages.extensions.mjs" "cobol" .project Sample.aliased).state.loaded = some config ∧
      (set "languages.extensions.mjs" "cobol" .project Sample.aliased).state.store =
        Sample.aliased.store := by
  have hset : (set "languages.extensions.mjs" "cobol" .project Sample.aliased).result =
      .ok (some (.invalid (.unknownLanguage "cobol" "mjs"))) := by decide +kernel
  have hsetting : settingOf? "languages.extensions.mjs" = some (.extension "mjs") := by
    decide +kernel
  have hnew : ((load Sample.aliased).result.toOption.map fun config =>
      Table.contains config.extensions "mjs") = some false := by decide +kernel
  obtain ⟨-, hcases⟩ := unsuccessful_set Sample.aliased
    "languages.extensions.mjs" "cobol" .project (by rw [hset]; simp)
  rcases hcases with ⟨fault, hload, -⟩ | ⟨config, held, hload, hheld, hcases⟩
  · rw [hload] at hnew
    cases hnew
  · rcases hcases with ⟨refusal, -, hstore, -, hiff⟩ | ⟨fault, setting, herror, -⟩
    · have hsame : held = config := by
        refine hiff.mpr fun ext hext => ?_
        rw [hsetting, Option.some.injEq, Setting.extension.injEq] at hext
        rw [hload] at hnew
        exact hext ▸ Option.some.inj hnew
      exact ⟨config, hload, hsame ▸ hheld, hstore⟩
    · rw [hset] at herror
      cases herror

/-- A refused change takes away the alias that was there, a change that cannot be saved stays in
force, and where there is no room the file is cut. -/
theorem unsuccessful_set_changes_aliases :
    ((load Sample.aliased).result.toOption.map Config.extensions) = some [("pyi", "python")] ∧
    (set "languages.extensions.pyi" "cobol" .project Sample.aliased).result =
      .ok (some (.invalid (.unknownLanguage "cobol" "pyi"))) ∧
    ((set "languages.extensions.pyi" "cobol" .project Sample.aliased).state.loaded.map
      Config.extensions) = some [] ∧
    (set "languages.extensions.mjs" "javascript" .user Sample.aliased).result =
      .error (.file .directory) ∧
    ((set "languages.extensions.mjs" "javascript" .user Sample.aliased).state.loaded.map
      Config.extensions) = some [("pyi", "python"), ("mjs", "javascript")] ∧
    (set "languages.extensions.pyi" "python" .project Sample.cramped).result =
      .error (.file .full) ∧
    (set "languages.extensions.pyi" "python" .project Sample.cramped).state.store.project =
      .text "highlight:\n  nam" := by
  decide +kernel

end Settings
end Polyglot
