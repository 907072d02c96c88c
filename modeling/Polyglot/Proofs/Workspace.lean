/-
Which registry does the work.

Parsers, highlight configurations and significant lines are made with the registry that is given, or
with the shared one if none is given.  Work on a registry is work on a part of the workspace, so it
comes to what it comes to on that registry alone, and the rest of the workspace is as before
(`perform_eq`).  A registry without rows counts as not given: the shared one answers in its place
and keeps what it has loaded (`given_registry_answers`).
-/
import Polyglot.Proofs.Registry.Cache
import Polyglot.Workspace

namespace Polyglot

namespace Registry

theorem rows_grammar (packages : Packages) (l : Language) (r : Registry) :
    (grammar packages l r).state.rows = r.rows := by
  rw [grammar_eq]
  cases Table.find? r.rows l with
  | none => rfl
  | some row =>
      dsimp only
      cases Table.find? r.grammars l with
      | some g => rfl
      | none =>
          dsimp only
          cases row.loadGrammar packages <;> rfl

theorem rows_makeParser (packages : Packages) (l : Language) (r : Registry) :
    (makeParser packages l r).state.rows = r.rows := by
  rw [← rows_grammar packages l r, makeParser]
  cases hgrammar : (grammar packages l r).result with
  | error fault => rw [Action.bind_of_error hgrammar]
  | ok g =>
      rw [Action.bind_of_ok hgrammar]
      dsimp only
      cases Row.guarded l [.value] .unbindable g.parser <;> rfl

/-- The significant lines of a text that parses to a tree, with one registry. -/
def significantLines (packages : Packages) (language : Language) (t : Tree) :
    Action Registry Rows := do
  let _ ← makeParser packages language
  let walked ← classify language (Cursor.ofTree t)
  return walked.1.lines

/-! ## Languages without a row -/

section NoRow

variable {r : Registry} {l : Language} (h : Table.find? r.rows l = none)
include h

theorem grammar_of_noRow (packages : Packages) :
    grammar packages l r =
      { result := .error (.registry (.noRow l)), state := r, notices := [] } := by
  rw [grammar_eq, h]

theorem makeParser_of_noRow (packages : Packages) :
    makeParser packages l r =
      { result := .error (.registry (.noRow l)), state := r, notices := [] } := by
  have hgrammar := grammar_of_noRow h packages
  rw [makeParser, Action.bind_of_error (by rw [hgrammar]), hgrammar]

theorem makeHighlight_of_noRow (packages : Packages) (names : Option (List String)) :
    makeHighlight packages l names r =
      { result := .error (.registry (.noRow l)), state := r, notices := [] } := by
  have hgrammar := grammar_of_noRow h packages
  rw [makeHighlight, Action.bind_of_error (by rw [hgrammar]), hgrammar]

theorem classify_of_noRow (c : Cursor) :
    classify l c r = { result := .error (.registry (.noRow l)), state := r, notices := [] } := by
  have hrow : rowAction l r =
      { result := .error (.registry (.noRow l)), state := r, notices := [] } := by
    rw [rowAction_eq, h]
  rw [classify, Action.bind_of_error (by rw [hrow]), hrow]

theorem significantLines_of_noRow (packages : Packages) (t : Tree) :
    significantLines packages l t r =
      { result := .error (.registry (.noRow l)), state := r, notices := [] } := by
  have hparser := makeParser_of_noRow h packages
  rw [significantLines, Action.bind_of_error (by rw [hparser]), hparser]

end NoRow

end Registry

namespace Workspace

/-! ## Work on a part of the workspace -/

theorem onRegistry_eq {α : Type} (which : InUse) (x : Packages → Action Registry α)
    (w : Workspace) :
    onRegistry which x w =
      { result := (x w.packages (w.registryOf which)).result,
        state := w.putRegistry which (x w.packages (w.registryOf which)).state,
        notices := (x w.packages (w.registryOf which)).notices } := rfl

theorem work_eq {α : Type} (given : Bool) (x : Packages → Action Registry α) (w : Workspace) :
    work given x w = onRegistry (w.workTarget given) x w := rfl

section Put

variable (w : Workspace) (which : InUse) (r r' : Registry)

@[simp] theorem registryOf_putRegistry : (w.putRegistry which r).registryOf which = r := by
  cases which <;> rfl

@[simp] theorem putRegistry_putRegistry :
    (w.putRegistry which r).putRegistry which r' = w.putRegistry which r' := by
  cases which <;> rfl

@[simp] theorem packages_putRegistry : (w.putRegistry which r).packages = w.packages := by
  cases which <;> rfl

end Put

/-- Work that leaves the rows alone does not change which registry the next work is done on. -/
theorem workTarget_putRegistry {w : Workspace} (given : Bool) {r : Registry}
    (h : r.rows = (w.registryOf (w.workTarget given)).rows) :
    (w.putRegistry (w.workTarget given) r).workTarget given = w.workTarget given := by
  have hempty : r.isEmpty = (w.registryOf (w.workTarget given)).isEmpty :=
    congrArg List.isEmpty h
  obtain ⟨own, shared, inUse, packages, settings⟩ := w
  cases given with
  | false => rfl
  | true =>
      cases inUse with
      | shared => simp [workTarget, putRegistry]
      | own =>
          cases hown : own.isEmpty with
          | true => simp [workTarget, registry, registryOf, putRegistry, hown]
          | false =>
              have hfull : r.isEmpty = false := by
                simpa [workTarget, registry, registryOf, hown] using hempty
              simp [workTarget, registry, registryOf, putRegistry, hown, hfull]

/-- Two pieces of work in a row are done on one registry. -/
theorem work_bind {α β : Type} {given : Bool} {x : Packages → Action Registry α}
    {f : α → Packages → Action Registry β}
    (hrows : ∀ packages r, (x packages r).state.rows = r.rows) (w : Workspace) :
    (work given x >>= fun a => work given (f a)) w =
      work given (fun packages => x packages >>= fun a => f a packages) w := by
  have htarget := workTarget_putRegistry given
    (hrows w.packages (w.registryOf (w.workTarget given)))
  rw [work_eq given (fun packages => x packages >>= fun a => f a packages), onRegistry_eq]
  cases hx : (x w.packages (w.registryOf (w.workTarget given))).result with
  | error fault =>
      rw [Action.bind_of_error (x := work given x) (s := w) hx, Action.bind_of_error hx]
      rfl
  | ok a =>
      rw [Action.bind_of_ok (x := work given x) (s := w) hx, Action.bind_of_ok hx]
      simp only [work_eq, onRegistry_eq, htarget, registryOf_putRegistry,
        putRegistry_putRegistry, packages_putRegistry]

theorem work_return {α β : Type} (given : Bool) (x : Packages → Action Registry α) (g : α → β)
    (w : Workspace) :
    (work given x >>= fun a => pure (g a)) w =
      work given (fun packages => x packages >>= fun a => pure (g a)) w := by
  rw [Action.bind_return, work_eq, work_eq, onRegistry_eq, onRegistry_eq, Action.bind_return]

theorem significantLines_eq (given : Bool) (l : Language) (t : Tree) (w : Workspace) :
    significantLines given l t w =
      work given (fun packages => Registry.significantLines packages l t) w := by
  have hlines : (fun _ => classify given l (Cursor.ofTree t) >>= fun walked =>
        pure walked.1.lines : Grammar → Action Workspace Rows) =
      fun _ => work given fun _ => Registry.classify l (Cursor.ofTree t) >>= fun walked =>
        pure walked.1.lines :=
    funext fun _ => funext (work_return given _ _)
  rw [significantLines, hlines]
  exact work_bind (fun packages r => Registry.rows_makeParser packages l r) w

/-! ## Jobs -/

inductive Job where
  | parser (language : Language)
  | highlight (language : Language) (names : Option (List String))
  | classification (language : Language) (cursor : Cursor)
  | lines (language : Language) (tree : Tree)

/-- What comes of a job. -/
inductive Product where
  | parser (grammar : Grammar)
  | highlight (highlight : Highlight)
  | classification (walk : Walk) (last : Cursor)
  | lines (rows : Rows)

namespace Job

def language : Job → Language
  | parser l => l
  | highlight l _ => l
  | classification l _ => l
  | lines l _ => l

/-- The job with the registry in use, or with none given. -/
def perform (given : Bool) : Job → Action Workspace Product
  | parser l => do return .parser (← makeParser given l)
  | highlight l names => do return .highlight (← makeHighlight given l names)
  | classification l c => do
      let walked ← classify given l c
      return .classification walked.1 walked.2
  | lines l t => do return .lines (← significantLines given l t)

/-- The job with one registry and nothing else but the packages. -/
def alone (packages : Packages) : Job → Action Registry Product
  | parser l => do return .parser (← Registry.makeParser packages l)
  | highlight l names => do return .highlight (← Registry.makeHighlight packages l names)
  | classification l c => do
      let walked ← Registry.classify l c
      return .classification walked.1 walked.2
  | lines l t => do return .lines (← Registry.significantLines packages l t)

theorem perform_eq (given : Bool) (job : Job) (w : Workspace) :
    job.perform given w = onRegistry (w.workTarget given) (job.alone ·) w := by
  rw [← work_eq]
  cases job with
  | parser | highlight | classification => exact work_return given _ _ w
  | lines l t =>
      rw [perform, show significantLines given l t = _ from funext (significantLines_eq given l t)]
      exact work_return given _ _ w

theorem alone_of_noRow {job : Job} {r : Registry} (h : Table.find? r.rows job.language = none)
    (packages : Packages) :
    job.alone packages r =
      { result := .error (.registry (.noRow job.language)), state := r, notices := [] } := by
  cases job with
  | parser l =>
      have hnone := Registry.makeParser_of_noRow (l := l) h packages
      rw [alone, Action.bind_of_error (by rw [hnone]), hnone]
      rfl
  | highlight l names =>
      have hnone := Registry.makeHighlight_of_noRow (l := l) h packages names
      rw [alone, Action.bind_of_error (by rw [hnone]), hnone]
      rfl
  | classification l c =>
      have hnone := Registry.classify_of_noRow (l := l) h c
      rw [alone, Action.bind_of_error (by rw [hnone]), hnone]
      rfl
  | lines l t =>
      have hnone := Registry.significantLines_of_noRow (l := l) h packages t
      rw [alone, Action.bind_of_error (by rw [hnone]), hnone]
      rfl

end Job

/-- The job is done with the registry that is given, as if there were no other, and the shared one
is as before; only where none is given does the shared one do it.  A registry without rows, which
could do no job, is passed over as if it were not given. -/
theorem given_registry_answers (own shared : Registry) (packages : Packages) (settings : Settings)
    (job : Job) :
    let w : Workspace := { own, shared, inUse := .own, packages, settings }
    (own.isEmpty = false →
      job.perform true w =
        { result := (job.alone packages own).result,
          state := { w with own := (job.alone packages own).state },
          notices := (job.alone packages own).notices }) ∧
    (own.isEmpty = true →
      (job.alone packages own).result = .error (.registry (.noRow job.language)) ∧
        job.perform true w = job.perform false w) ∧
    job.perform false w =
      { result := (job.alone packages shared).result,
        state := { w with shared := (job.alone packages shared).state },
        notices := (job.alone packages shared).notices } := by
  intro w
  refine ⟨fun hfull => ?_, fun hempty => ⟨?_, ?_⟩, ?_⟩
  · have htarget : w.workTarget true = .own := by
      simp [w, workTarget, registry, registryOf, hfull]
    rw [Job.perform_eq, htarget, onRegistry_eq]
    rfl
  · have hrows : own.rows = [] := List.isEmpty_iff.mp hempty
    rw [Job.alone_of_noRow (by rw [hrows, Table.find?_nil])]
  · have htarget : w.workTarget true = w.workTarget false := by
      simp [w, workTarget, registry, registryOf, hempty]
    rw [Job.perform_eq, Job.perform_eq, htarget]
  · rw [Job.perform_eq, onRegistry_eq]
    rfl

namespace Sample

def grammar : Grammar := { name := some "rust" }

def packages : Packages := [("tree_sitter_rust", { attributes := [("language", .ok (.function (.ok grammar)))] })]

/-- A registry that had a row and lost it. -/
def emptied : Registry := Registry.run Registry.empty [.register Row.rust, .unregister .rust]

/-- A registry with a row of its own. -/
def single : Registry := Registry.run Registry.empty [.register Row.rust]

end Sample

/-- A registry with a row does the work by itself: what it loads does not go to the shared one. -/
theorem given_registry_answers_single :
    let w : Workspace := { own := Sample.single, packages := Sample.packages }
    Sample.single.isEmpty = false ∧
      ((Job.parser .rust).perform true w).result = .ok (.parser Sample.grammar) ∧
      ((Job.parser .rust).perform true w).state.shared = w.shared := by
  intro w
  have hfull : Sample.single.isEmpty = false := by decide +kernel
  obtain ⟨hown, -, -⟩ :=
    given_registry_answers Sample.single w.shared Sample.packages {} (.parser .rust)
  have hperform := hown hfull
  refine ⟨hfull, ?_, ?_⟩
  · rw [hperform]
    rfl
  · rw [hperform]

/-- A registry that has lost its rows is given, and the shared one does the work and keeps the
grammar.  With another shared registry the outcome is another. -/
theorem emptied_registry_is_passed_over :
    let w : Workspace := { own := Sample.emptied, packages := Sample.packages }
    ((Job.parser .rust).alone Sample.packages Sample.emptied).result =
        .error (.registry (.noRow .rust)) ∧
      ((Job.parser .rust).perform true w).result = .ok (.parser Sample.grammar) ∧
      ((Job.parser .rust).perform true w).state.shared.grammars = [(.rust, Sample.grammar)] ∧
      w.shared.grammars = [] ∧
      ((Job.parser .rust).perform true { w with shared := Registry.empty }).result =
        .error (.registry (.noRow .rust)) := by
  exact ⟨rfl, rfl, rfl, rfl, rfl⟩

end Workspace
end Polyglot
