/-
Actions: steps that change a state, speak, and may fail.

A step that fails keeps what it changed and said before.
-/
import Polyglot.Grammar.Package
import Polyglot.Notice
import Polyglot.Registry.Fault
import Polyglot.Yaml.Fault

namespace Polyglot

inductive FileFault where
  | undecodable
  | occupied
  | directory
  | forbidden
  | full
deriving DecidableEq, Repr

inductive Fault where
  | registry (fault : Registry.Fault)
  | grammar (fault : Grammar.Fault)
  | raised (exception : Raised)
  | document (fault : Yaml.Fault)
  | file (fault : FileFault)
deriving DecidableEq, Repr

structure Outcome (σ α : Type) where
  result : Except Fault α
  state : σ
  notices : List Notice

def Action (σ α : Type) : Type := σ → Outcome σ α

namespace Action

variable {σ τ α β : Type}

def pure (a : α) : Action σ α := fun s => { result := .ok a, state := s, notices := [] }

def bind (x : Action σ α) (f : α → Action σ β) : Action σ β := fun s =>
  let first := x s
  match first.result with
  | .error fault => { result := .error fault, state := first.state, notices := first.notices }
  | .ok a =>
      let second := f a first.state
      { second with notices := first.notices ++ second.notices }

instance : Monad (Action σ) where
  pure := Action.pure
  bind := Action.bind

def fail (fault : Fault) : Action σ α := fun s =>
  { result := .error fault, state := s, notices := [] }

def say (notice : Notice) : Action σ Unit := fun s =>
  { result := .ok (), state := s, notices := [notice] }

def sayAll (notices : List Notice) : Action σ Unit := fun s =>
  { result := .ok (), state := s, notices }

def state : Action σ σ := fun s => { result := .ok s, state := s, notices := [] }

def replace (s : σ) : Action σ Unit := fun _ => { result := .ok (), state := s, notices := [] }

def ofExcept (x : Except Fault α) : Action σ α := fun s =>
  { result := x, state := s, notices := [] }

/-- An action on a part of a larger state. -/
def within (get : τ → σ) (put : τ → σ → τ) (x : Action σ α) : Action τ α := fun t =>
  let inner := x (get t)
  { result := inner.result, state := put t inner.state, notices := inner.notices }

end Action
end Polyglot
