/-
What actions in a row come to.
-/
import Polyglot.Action

namespace Polyglot

/-- The fault, if there is one. -/
def faultOf {α : Type} : Except Fault α → Option Fault
  | .ok _ => none
  | .error fault => some fault

theorem faultOf_eq_some_iff {α : Type} {x : Except Fault α} {fault : Fault} :
    faultOf x = some fault ↔ x = .error fault := by
  cases x with
  | ok a => simp [faultOf]
  | error e => simp [faultOf]

namespace Action

variable {σ α β : Type} {x : Action σ α} {f : α → Action σ β} {s : σ}

/-- After a step that gives a result, the rest goes on from the state it leaves. -/
theorem bind_of_ok {a : α} (h : (x s).result = .ok a) :
    (x >>= f) s =
      { result := (f a (x s).state).result, state := (f a (x s).state).state,
        notices := (x s).notices ++ (f a (x s).state).notices } := by
  show Action.bind x f s = _
  simp only [Action.bind, h]

/-- A step that fails ends the action. -/
theorem bind_of_error {e : Fault} (h : (x s).result = .error e) :
    (x >>= f) s =
      { result := .error e, state := (x s).state, notices := (x s).notices } := by
  show Action.bind x f s = _
  simp only [Action.bind, h]

/-- An action that only makes something of what another one gives. -/
theorem bind_return (act : Action σ α) (g : α → β) (s : σ) :
    (act >>= fun a => Pure.pure (g a)) s =
      { result := (act s).result.map g, state := (act s).state, notices := (act s).notices } := by
  cases h : (act s).result with
  | error fault =>
      rw [bind_of_error h]
      rfl
  | ok a =>
      rw [bind_of_ok h]
      show Outcome.mk _ _ (_ ++ []) = _
      rw [List.append_nil]
      rfl

end Action
end Polyglot
