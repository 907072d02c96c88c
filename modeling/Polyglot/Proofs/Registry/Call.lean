/-
Runs of calls on a registry.

`Call.perform` is a call as an action: a call that fails still leaves a registry, and the next call
of a run meets it.  Each call has one lemma that says what it comes to, `Call.after_cases` puts
together what a call can do to a registry, and what a run keeps is then shown call by call with
`run_induction`.
-/
import Polyglot.Registry.Load
import Polyglot.Proofs.Action
import Polyglot.Proofs.Table

namespace Polyglot
namespace Registry

/-- A call on a registry.  The packages are those that exist when the call is made. -/
inductive Call where
  | register (row : Row)
  | unregister (language : Language)
  | addAlias (ext : String) (language : Language)
  | grammar (packages : Packages) (language : Language)
  | highlightQuery (packages : Packages) (language : Language)

inductive Reply where
  | done
  | removed (found : Bool)
  | grammar (grammar : Grammar)
  | query (text : String)

namespace Call

def perform : Call → Action Registry Reply
  | register row => do
      let r ← Action.state
      Action.replace (← Action.ofExcept ((r.register row).mapError .registry))
      return .done
  | unregister language => do
      let r ← Action.state
      match r.unregister language with
      | some rest => do
          Action.replace rest
          return .removed true
      | none => return .removed false
  | addAlias ext language => do
      let r ← Action.state
      Action.replace (← Action.ofExcept ((r.addAlias ext language).mapError .registry))
      return .done
  | grammar packages language => do return .grammar (← Registry.grammar packages language)
  | highlightQuery packages language => do
      return .query (← Registry.highlightQuery packages language)

/-- The registry that a call leaves, also where it fails. -/
def after (r : Registry) (call : Call) : Registry := (call.perform r).state

/-- A call succeeds if it does not fail and, where it is to remove something, finds it. -/
def succeeds (r : Registry) (call : Call) : Bool :=
  match (call.perform r).result with
  | .ok (.removed found) => found
  | .ok _ => true
  | .error _ => false

end Call

/-- The registry after a run of calls. -/
def run (r : Registry) (calls : List Call) : Registry := calls.foldl Call.after r

theorem run_append (r : Registry) (a b : List Call) : run r (a ++ b) = run (run r a) b :=
  List.foldl_append

/-- What holds of the empty registry and is kept by every call holds after every run. -/
theorem run_induction {P : Registry → Prop} (hempty : P empty)
    (hstep : ∀ r call, P r → P (Call.after r call)) (calls : List Call) : P (run empty calls) := by
  suffices h : ∀ r, P r → P (run r calls) from h empty hempty
  induction calls with
  | nil => exact fun _ h => h
  | cons call rest ih => exact fun r h => ih _ (hstep r call h)

/-! ## What each call comes to -/

namespace Call

theorem perform_register (r : Registry) (row : Row) :
    (register row).perform r =
      match r.register row with
      | .ok r' => { result := .ok .done, state := r', notices := [] }
      | .error fault => { result := .error (.registry fault), state := r, notices := [] } := by
  simp only [perform, bind, Action.bind, Action.state, Action.ofExcept]
  cases r.register row <;> rfl

theorem perform_unregister (r : Registry) (language : Language) :
    (unregister language).perform r =
      match r.unregister language with
      | some rest => { result := .ok (.removed true), state := rest, notices := [] }
      | none => { result := .ok (.removed false), state := r, notices := [] } := by
  simp only [perform, bind, Action.bind, Action.state]
  cases r.unregister language <;> rfl

theorem perform_addAlias (r : Registry) (ext : String) (language : Language) :
    (addAlias ext language).perform r =
      match r.addAlias ext language with
      | .ok r' => { result := .ok .done, state := r', notices := [] }
      | .error fault => { result := .error (.registry fault), state := r, notices := [] } := by
  simp only [perform, bind, Action.bind, Action.state, Action.ofExcept]
  cases r.addAlias ext language <;> rfl

theorem perform_grammar (r : Registry) (packages : Packages) (language : Language) :
    (grammar packages language).perform r =
      { result := (Registry.grammar packages language r).result.map .grammar,
        state := (Registry.grammar packages language r).state,
        notices := (Registry.grammar packages language r).notices } :=
  Action.bind_return _ _ r

theorem perform_highlightQuery (r : Registry) (packages : Packages) (language : Language) :
    (highlightQuery packages language).perform r =
      { result := (Registry.highlightQuery packages language r).result.map .query,
        state := (Registry.highlightQuery packages language r).state,
        notices := (Registry.highlightQuery packages language r).notices } :=
  Action.bind_return _ _ r

end Call

theorem rowAction_eq (language : Language) (r : Registry) :
    rowAction language r =
      match Table.find? r.rows language with
      | none => { result := .error (.registry (.noRow language)), state := r, notices := [] }
      | some row => { result := .ok row, state := r, notices := [] } := by
  simp only [rowAction, row, bind, Action.bind, Action.state, Action.ofExcept]
  cases Table.find? r.rows language <;> rfl

/-- Where the row is there, an action that looks at it first goes on with it. -/
theorem rowAction_bind {α : Type} {language : Language} {r : Registry} {row : Row}
    (h : Table.find? r.rows language = some row) (f : Row → Action Registry α) :
    (rowAction language >>= f) r = f row r := by
  have haction := rowAction_eq language r
  rw [h] at haction
  rw [Action.bind_of_ok (a := row) (by rw [haction]), haction]
  rfl

theorem grammar_eq (packages : Packages) (language : Language) (r : Registry) :
    grammar packages language r =
      match Table.find? r.rows language with
      | none => { result := .error (.registry (.noRow language)), state := r, notices := [] }
      | some row =>
          match Table.find? r.grammars language with
          | some g => { result := .ok g, state := r, notices := [] }
          | none =>
              match row.loadGrammar packages with
              | .error fault => { result := .error fault, state := r, notices := [] }
              | .ok g =>
                  { result := .ok g,
                    state := { r with grammars := Table.insert r.grammars language g },
                    notices := [.grammarLoaded row.name row.grammarModule] } := by
  simp only [grammar, bind, Action.bind, rowAction_eq, Action.state]
  cases Table.find? r.rows language with
  | none => rfl
  | some row =>
      simp only
      cases Table.find? r.grammars language with
      | some g => rfl
      | none =>
          simp only
          cases row.loadGrammar packages <;> rfl

theorem highlightQuery_eq (packages : Packages) (language : Language) (r : Registry) :
    highlightQuery packages language r =
      match Table.find? r.rows language with
      | none => { result := .error (.registry (.noRow language)), state := r, notices := [] }
      | some row =>
          match Table.find? r.queries language with
          | some text => { result := .ok text, state := r, notices := [] }
          | none =>
              match row.readQueries packages row.highlightQueries with
              | .error fault => { result := .error fault, state := r, notices := [] }
              | .ok text =>
                  { result := .ok text,
                    state := { r with queries := Table.insert r.queries language text },
                    notices := [] } := by
  simp only [highlightQuery, bind, Action.bind, rowAction_eq, Action.state]
  cases Table.find? r.rows language with
  | none => rfl
  | some row =>
      simp only
      cases Table.find? r.queries language with
      | some g => rfl
      | none =>
          simp only
          cases row.readQueries packages row.highlightQueries <;> rfl

theorem conflict?_eq_none_iff {r : Registry} {row : Row} :
    r.conflict? row = none ↔ ∀ ext ∈ row.extensions, ∀ owner,
      Table.find? r.routes (Text.dropDot ext) = some owner → owner = row.language := by
  rw [conflict?, List.findSome?_eq_none_iff]
  constructor
  · intro h ext hext owner hfind
    have hnone := h ext hext
    rw [hfind] at hnone
    by_cases heq : owner = row.language
    · exact heq
    · simp only [if_neg heq, reduceCtorEq] at hnone
  · intro h ext hext
    cases hfind : Table.find? r.routes (Text.dropDot ext) with
    | none => rfl
    | some owner =>
        simp only
        rw [if_pos (h ext hext owner hfind)]

/-- What a call that succeeds does, and when it can. -/
inductive Effect (r : Registry) : Call → Registry → Prop where
  | register (row : Row)
      (free : ∀ ext ∈ row.extensions, ∀ owner,
        Table.find? r.routes (Text.dropDot ext) = some owner → owner = row.language) :
      Effect r (.register row)
        { r with
          rows := Table.insert r.rows row.language row,
          routes := route r.routes row.extensions row.language }
  | unregister (language : Language) (present : r.contains language = true) :
      Effect r (.unregister language)
        { rows := Table.erase r.rows language,
          routes := r.routes.filter fun e => e.2 ≠ language,
          grammars := Table.erase r.grammars language,
          queries := Table.erase r.queries language }
  | addAlias (ext : String) (language : Language) (present : r.contains language = true)
      (free : ∀ owner,
        Table.find? r.routes (Text.dropDot ext) = some owner → owner = language) :
      Effect r (.addAlias ext language)
        { r with routes := Table.insert r.routes (Text.dropDot ext) language }
  | grammarKept (packages : Packages) (language : Language) {g : Grammar}
      (present : r.contains language = true) (kept : Table.find? r.grammars language = some g) :
      Effect r (.grammar packages language) r
  | grammarLoaded (packages : Packages) (language : Language) {row : Row} {g : Grammar}
      (present : Table.find? r.rows language = some row)
      (new : Table.find? r.grammars language = none) (loads : row.loadGrammar packages = .ok g) :
      Effect r (.grammar packages language)
        { r with grammars := Table.insert r.grammars language g }
  | queryKept (packages : Packages) (language : Language) {text : String}
      (present : r.contains language = true) (kept : Table.find? r.queries language = some text) :
      Effect r (.highlightQuery packages language) r
  | queryRead (packages : Packages) (language : Language) {row : Row} {text : String}
      (present : Table.find? r.rows language = some row)
      (new : Table.find? r.queries language = none)
      (reads : row.readQueries packages row.highlightQueries = .ok text) :
      Effect r (.highlightQuery packages language)
        { r with queries := Table.insert r.queries language text }

theorem contains_of_find? {r : Registry} {language : Language} {row : Row}
    (h : Table.find? r.rows language = some row) : r.contains language = true := by
  rw [contains, Table.contains, h, Option.isSome_some]

theorem find?_of_contains {r : Registry} {language : Language} (h : r.contains language = true) :
    ∃ row, Table.find? r.rows language = some row :=
  Option.isSome_iff_exists.mp h

theorem register_cases (r : Registry) (row : Row) :
    (∃ fault, r.register row = .error fault) ∨
      ∃ r', r.register row = .ok r' ∧ Effect r (.register row) r' := by
  rw [register]
  cases hc : r.conflict? row with
  | some taken => exact .inl ⟨_, rfl⟩
  | none => exact .inr ⟨_, rfl, .register row (conflict?_eq_none_iff.mp hc)⟩

theorem unregister_cases (r : Registry) (language : Language) :
    r.unregister language = none ∨
      ∃ r', r.unregister language = some r' ∧ Effect r (.unregister language) r' := by
  rw [unregister]
  by_cases hp : r.contains language = true
  · rw [if_pos hp]
    exact .inr ⟨_, rfl, .unregister language hp⟩
  · rw [if_neg hp]
    exact .inl rfl

theorem addAlias_cases (r : Registry) (ext : String) (language : Language) :
    (∃ fault, r.addAlias ext language = .error fault) ∨
      ∃ r', r.addAlias ext language = .ok r' ∧ Effect r (.addAlias ext language) r' := by
  simp only [addAlias, row]
  cases hrow : Table.find? r.rows language with
  | none => exact .inl ⟨_, rfl⟩
  | some row =>
      have hp := contains_of_find? hrow
      simp only [bind, Except.bind]
      cases hfind : Table.find? r.routes (Text.dropDot ext) with
      | none =>
          refine .inr ⟨_, rfl, .addAlias ext language hp fun owner howner => ?_⟩
          rw [hfind] at howner
          cases howner
      | some owner =>
          simp only
          by_cases heq : owner = language
          · rw [if_pos heq]
            refine .inr ⟨_, rfl, .addAlias ext language hp fun owner' howner => ?_⟩
            rw [hfind, Option.some.injEq] at howner
            rw [← howner, heq]
          · rw [if_neg heq]
            exact .inl ⟨_, rfl⟩

/-- A call that does not succeed leaves the registry as it was; one that succeeds has its effect. -/
theorem Call.after_cases (r : Registry) (call : Call) :
    (call.succeeds r = false ∧ call.after r = r) ∨
      (call.succeeds r = true ∧ Effect r call (call.after r)) := by
  cases call with
  | register row =>
      rw [succeeds, after, perform_register]
      rcases register_cases r row with ⟨fault, h⟩ | ⟨r', h, heff⟩
      · rw [h]
        exact .inl ⟨rfl, rfl⟩
      · rw [h]
        exact .inr ⟨rfl, heff⟩
  | unregister language =>
      rw [succeeds, after, perform_unregister]
      rcases unregister_cases r language with h | ⟨r', h, heff⟩
      · rw [h]
        exact .inl ⟨rfl, rfl⟩
      · rw [h]
        exact .inr ⟨rfl, heff⟩
  | addAlias ext language =>
      rw [succeeds, after, perform_addAlias]
      rcases addAlias_cases r ext language with ⟨fault, h⟩ | ⟨r', h, heff⟩
      · rw [h]
        exact .inl ⟨rfl, rfl⟩
      · rw [h]
        exact .inr ⟨rfl, heff⟩
  | grammar packages language =>
      rw [succeeds, after, perform_grammar, grammar_eq]
      cases hrow : Table.find? r.rows language with
      | none => exact .inl ⟨rfl, rfl⟩
      | some row =>
          simp only
          cases hg : Table.find? r.grammars language with
          | some g => exact .inr ⟨rfl, .grammarKept packages language (contains_of_find? hrow) hg⟩
          | none =>
              simp only
              cases hload : row.loadGrammar packages with
              | error fault => exact .inl ⟨rfl, rfl⟩
              | ok g => exact .inr ⟨rfl, .grammarLoaded packages language hrow hg hload⟩
  | highlightQuery packages language =>
      rw [succeeds, after, perform_highlightQuery, highlightQuery_eq]
      cases hrow : Table.find? r.rows language with
      | none => exact .inl ⟨rfl, rfl⟩
      | some row =>
          simp only
          cases hq : Table.find? r.queries language with
          | some text => exact .inr ⟨rfl, .queryKept packages language (contains_of_find? hrow) hq⟩
          | none =>
              simp only
              cases hread : row.readQueries packages row.highlightQueries with
              | error fault => exact .inl ⟨rfl, rfl⟩
              | ok text => exact .inr ⟨rfl, .queryRead packages language hrow hq hread⟩

end Registry
end Polyglot
