/-
A workspace: registries, packages and settings that are used together.

Beside the registry in use there is one that all share.  It answers where no registry is given and,
for parsers, highlights and lines, also where the given one is empty.
-/
import Polyglot.Registry.Build
import Polyglot.Registry.Use
import Polyglot.Settings

namespace Polyglot

inductive InUse where
  | own
  | shared
deriving DecidableEq, Repr

structure Workspace where
  own : Registry := Registry.builtin
  shared : Registry := Registry.builtin
  inUse : InUse := .own
  packages : Packages := []
  settings : Settings := {}

namespace Workspace

def registryOf (w : Workspace) : InUse → Registry
  | .own => w.own
  | .shared => w.shared

def putRegistry (w : Workspace) (which : InUse) (r : Registry) : Workspace :=
  match which with
  | .own => { w with own := r }
  | .shared => { w with shared := r }

def registry (w : Workspace) : Registry := w.registryOf w.inUse

/-- The registry for a look-up: the one in use if it is given. -/
def lookupTarget (w : Workspace) (given : Bool) : InUse := if given then w.inUse else .shared

/-- The registry for work: the one in use if it is given and not empty. -/
def workTarget (w : Workspace) (given : Bool) : InUse :=
  if given && !w.registry.isEmpty then w.inUse else .shared

def onRegistry {α : Type} (which : InUse) (x : Packages → Action Registry α) :
    Action Workspace α := fun w =>
  Action.within (registryOf · which) (putRegistry · which) (x w.packages) w

def lookup {α : Type} (given : Bool) (x : Packages → Action Registry α) : Action Workspace α := do
  let w ← Action.state
  onRegistry (w.lookupTarget given) x

def work {α : Type} (given : Bool) (x : Packages → Action Registry α) : Action Workspace α := do
  let w ← Action.state
  onRegistry (w.workTarget given) x

def onSettings {α : Type} (x : Action Settings α) : Action Workspace α :=
  Action.within settings (fun w s => { w with settings := s }) x

/-! ## Registries -/

def adopt (r : Registry) : Action Workspace Unit := fun w =>
  { result := .ok (), state := { w with own := r, inUse := .own }, notices := [] }

def share : Action Workspace Unit := fun w =>
  { result := .ok (), state := { w with inUse := .shared }, notices := [] }

def register (row : Row) : Action Workspace Unit :=
  lookup true fun _ => do
    let r ← Action.state
    Action.replace (← Action.ofExcept ((r.register row).mapError .registry))

def addAlias (ext : String) (language : Language) : Action Workspace Unit :=
  lookup true fun _ => do
    let r ← Action.state
    Action.replace (← Action.ofExcept ((r.addAlias ext language).mapError .registry))

/-- Whether there was something to remove. -/
def unregister (language : Language) : Action Workspace Bool :=
  lookup true fun _ => do
    let r ← Action.state
    match r.unregister language with
    | some r => do
        Action.replace r
        return true
    | none => return false

/-- The given configuration, or the one that the files and the environment now give. -/
def configOr (config : Option Config) : Action Workspace Config :=
  match config with
  | some config => pure config
  | none => onSettings Settings.current

def buildRegistry (config : Option Config) : Action Workspace Unit := do
  let config ← configOr config
  let built := Registry.build config
  Action.sayAll built.notices
  Action.ofExcept built.result
  adopt built.state

/-! ## Parsers, highlights and lines -/

def makeParser (given : Bool) (language : Language) : Action Workspace Grammar :=
  work given fun packages => Registry.makeParser packages language

def makeHighlight (given : Bool) (language : Language) (names : Option (List String)) :
    Action Workspace Highlight :=
  work given fun packages => Registry.makeHighlight packages language names

def buildHighlight (given : Bool) (language : Language) (config : Option Config) :
    Action Workspace Highlight := do
  let config ← configOr config
  makeHighlight given language (some config.names)

def classify (given : Bool) (language : Language) (c : Cursor) : Action Workspace (Walk × Cursor) :=
  work given fun _ => Registry.classify language c

def significantLines (given : Bool) (language : Language) (t : Tree) : Action Workspace Rows := do
  let _ ← makeParser given language
  let walked ← classify given language (Cursor.ofTree t)
  return walked.1.lines

end Workspace
end Polyglot
