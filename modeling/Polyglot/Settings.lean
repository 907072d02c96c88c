/-
Settings: the configuration that is in force, and how it is read and changed.

The project's file goes before the user's, and that before the environment.  What has been loaded is
kept and answers all later questions.
-/
import Polyglot.Settings.Store

namespace Polyglot

def Store.load (store : Store) (environment : Environment) : Outcome Unit Config :=
  let fails (fault : Fault) (notices : List Notice) : Outcome Unit Config :=
    { result := .error fault, state := (), notices }
  match store.user.data .user with
  | .error fault => fails fault []
  | .ok (user, fromUser) =>
      match store.project.data .project with
      | .error fault => fails fault fromUser
      | .ok (project, fromProject) =>
          let data := Value.merge (Value.merge environment.data user) project
          let (config, notices) := Config.ofSection data
          { result := .ok config, state := (), notices := fromUser ++ fromProject ++ notices }

structure Settings where
  environment : Environment := {}
  store : Store := {}
  loaded : Option Config := none
deriving DecidableEq, Repr

namespace Settings

def fresh (s : Settings) : Settings := { s with loaded := none }

def current : Action Settings Config := fun s =>
  let o := s.store.load s.environment
  { result := o.result, state := s, notices := o.notices }

/-- The configuration in force; it is loaded once. -/
def load : Action Settings Config := do
  let s ← Action.state
  match s.loaded with
  | some config => return config
  | none =>
      let config ← current
      Action.replace { s with loaded := some config }
      return config

def keep (config : Config) : Action Settings Unit := do
  let s ← Action.state
  Action.replace { s with loaded := some config }

def save (layer : Layer) (config : Config) : Action Settings Unit := do
  let s ← Action.state
  let (store, fault) := s.store.write layer config.document
  Action.replace { s with store }
  match fault with
  | some fault => Action.fail (.file fault)
  | none => keep config

inductive Refusal where
  | languageKey (key : String)
  | highlightKey (key : String)
  | unknownSection (name : String)
  | invalid (problem : Config.Problem)
deriving DecidableEq, Repr

namespace Refusal

def message : Refusal → String
  | languageKey key =>
      "Invalid key format: " ++ key ++ ". Use 'languages.extensions.<ext>'"
  | highlightKey key =>
      "Unknown highlight setting: " ++ key ++ ". Valid: highlight.names"
  | unknownSection name => "Unknown section: " ++ name ++ ". Valid: languages, highlight"
  | invalid problem => problem.message

end Refusal

/-- A change of the configuration: what it becomes, and whether the change stands. -/
structure Change where
  config : Config
  refusal : Option Refusal

/-- Routes an extension to a language.  A change that makes the extensions invalid takes the
extension out again. -/
def changeExtension (config : Config) (ext value : String) : Change :=
  let ext := Text.dropDots ext
  let changed := { config with extensions := config.extensions.insert ext (Text.strip value) }
  match changed.extensionsProblem? with
  | none => { config := changed, refusal := none }
  | some problem =>
      { config := { changed with extensions := changed.extensions.erase ext },
        refusal := some (.invalid problem) }

def changeNames (config : Config) (value : String) : Change :=
  let changed := { config with names := Config.parseNames value }
  match changed.namesProblem? with
  | none => { config := changed, refusal := none }
  | some problem => { config, refusal := some (.invalid problem) }

def change (config : Config) (key value : String) : Change :=
  match Text.fields '.' key with
  | "languages" :: rest =>
      match rest with
      | ["extensions", ext] => changeExtension config ext value
      | _ => { config, refusal := some (.languageKey key) }
  | "highlight" :: rest =>
      match rest with
      | ["names"] => changeNames config value
      | _ => { config, refusal := some (.highlightKey key) }
  | first :: _ => { config, refusal := some (.unknownSection first) }
  | [] => { config, refusal := some (.unknownSection "") }

def set (key value : String) (layer : Layer) : Action Settings (Option Refusal) := do
  let config ← load
  let change := change config key value
  keep change.config
  match change.refusal with
  | some refusal => return some refusal
  | none =>
      save layer change.config
      return none

def get (key : String) : Action Settings (Option String) := do
  let config ← load
  match Text.fields '.' key with
  | ["highlight", "names"] => return some (",".intercalate config.names)
  | ["languages", "extensions", ext] => return config.extensions.find? (Text.dropDots ext)
  | _ => return none

end Settings
end Polyglot
