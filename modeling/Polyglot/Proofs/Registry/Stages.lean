/-
The stages on the way to a highlight configuration.

A row is looked up, its grammar and its highlight query are taken from what the registry has kept or
else from the packages, then come its injection and locals queries, and at last all of it is compiled.
`Stage.fault?` says of each stage, by the registry as it was at the beginning, what it fails with.
The first stage that fails decides the outcome, and what the stages before it have loaded stays with
the registry (`makeHighlight_in_stages`).
-/
import Polyglot.Proofs.Registry.Packages
import Polyglot.Proofs.Workspace

namespace Polyglot

open Table (find? insert)

namespace Registry

/-! ## What is kept or loaded -/

/-- The grammar that the registry has kept, or else the one that the row names. -/
def heldGrammar (packages : Packages) (l : Language) (r : Registry) (row : Row) :
    Except Polyglot.Fault Grammar :=
  match find? r.grammars l with
  | some g => .ok g
  | none => row.loadGrammar packages

/-- The highlight query that the registry has kept, or else the row's files. -/
def heldQuery (packages : Packages) (l : Language) (r : Registry) (row : Row) :
    Except Polyglot.Fault String :=
  match find? r.queries l with
  | some text => .ok text
  | none => row.readQueries packages row.highlightQueries

section Held

variable {packages : Packages} {r : Registry} {l : Language} {row : Row}

theorem injectionQuery_eq (hrow : find? r.rows l = some row) :
    injectionQuery packages l r =
      { result := row.readQueries packages row.injectionQueries, state := r, notices := [] } :=
  rowAction_bind hrow _

theorem localsQuery_eq (hrow : find? r.rows l = some row) :
    localsQuery packages l r =
      { result := row.readQueries packages row.localsQueries, state := r, notices := [] } :=
  rowAction_bind hrow _

theorem faultOf_heldQuery (packages : Packages) (l : Language) (r : Registry) (row : Row) :
    faultOf (heldQuery packages l r row) =
      if (find? r.queries l).isSome then none
      else row.firstFault? packages row.highlightQueries := by
  rw [heldQuery]
  cases find? r.queries l with
  | some text => rfl
  | none =>
      dsimp only
      rw [Row.readQueries_eq]
      cases row.firstFault? packages row.highlightQueries <;> rfl

theorem grammar_of_error (hrow : find? r.rows l = some row) {fault : Polyglot.Fault}
    (h : heldGrammar packages l r row = .error fault) :
    grammar packages l r = { result := .error fault, state := r, notices := [] } := by
  rw [heldGrammar] at h
  rw [grammar_eq, hrow]
  dsimp only
  cases hkept : find? r.grammars l with
  | some g =>
      rw [hkept] at h
      cases h
  | none =>
      rw [hkept] at h
      rw [show row.loadGrammar packages = .error fault from h]

/-- A grammar that was kept is written over itself, so both ways come to one. -/
theorem grammar_of_ok (hrow : find? r.rows l = some row) {g : Grammar}
    (h : heldGrammar packages l r row = .ok g) :
    (grammar packages l r).result = .ok g ∧
      (grammar packages l r).state = { r with grammars := insert r.grammars l g } := by
  rw [heldGrammar] at h
  rw [grammar_eq, hrow]
  dsimp only
  cases hkept : find? r.grammars l with
  | some g' =>
      rw [hkept] at h
      obtain rfl : g' = g := Except.ok.inj h
      rw [Table.insert_eq_self_iff.mpr hkept]
      exact ⟨rfl, rfl⟩
  | none =>
      rw [hkept] at h
      rw [show row.loadGrammar packages = .ok g from h]
      exact ⟨rfl, rfl⟩

theorem highlightQuery_of_error (hrow : find? r.rows l = some row) {fault : Polyglot.Fault}
    (h : heldQuery packages l r row = .error fault) :
    highlightQuery packages l r = { result := .error fault, state := r, notices := [] } := by
  rw [heldQuery] at h
  rw [highlightQuery_eq, hrow]
  dsimp only
  cases hkept : find? r.queries l with
  | some text =>
      rw [hkept] at h
      cases h
  | none =>
      rw [hkept] at h
      rw [show row.readQueries packages row.highlightQueries = .error fault from h]

theorem highlightQuery_of_ok (hrow : find? r.rows l = some row) {text : String}
    (h : heldQuery packages l r row = .ok text) :
    (highlightQuery packages l r).result = .ok text ∧
      (highlightQuery packages l r).state = { r with queries := insert r.queries l text } := by
  rw [heldQuery] at h
  rw [highlightQuery_eq, hrow]
  dsimp only
  cases hkept : find? r.queries l with
  | some text' =>
      rw [hkept] at h
      obtain rfl : text' = text := Except.ok.inj h
      rw [Table.insert_eq_self_iff.mpr hkept]
      exact ⟨rfl, rfl⟩
  | none =>
      rw [hkept] at h
      rw [show row.readQueries packages row.highlightQueries = .ok text from h]
      exact ⟨rfl, rfl⟩

end Held

/-! ## Stages and their faults -/

inductive Stage where
  | row
  | grammar
  | highlights
  | injections
  | locals
  | compilation
deriving DecidableEq, Repr

namespace Stage

/-- The stages in their order, up to this one. -/
def upTo : Stage → List Stage
  | row => [row]
  | grammar => [row, grammar]
  | highlights => [row, grammar, highlights]
  | injections => [row, grammar, highlights, injections]
  | locals => [row, grammar, highlights, injections, locals]
  | compilation => [row, grammar, highlights, injections, locals, compilation]

theorem upTo_compilation :
    compilation.upTo = highlights.upTo ++ [injections, locals, compilation] := rfl

/-- The text that is compiled: the queries that are not empty, each on lines of its own. -/
def sourceOf (injections locals highlights : String) : String :=
  "\n".intercalate ([injections, locals, highlights].filter (!·.isEmpty))

/-- The text that is compiled for a language with this row. -/
def source (packages : Packages) (l : Language) (r : Registry) (row : Row) : String :=
  sourceOf (row.joined packages row.injectionQueries) (row.joined packages row.localsQueries)
    ((find? r.queries l).getD (row.joined packages row.highlightQueries))

/-- Whatever a query text is refused with is a fault of the grammar. -/
def refusal? (l : Language) (compiled : Except Raised (List String)) : Option Polyglot.Fault :=
  match compiled with
  | .error e => some (.grammar { language := l, problem := .invalidQuery e })
  | .ok _ => none

/-- What a stage fails with, if those before it pass. -/
def fault? (packages : Packages) (l : Language) (r : Registry) : Stage → Option Polyglot.Fault
  | row => if r.contains l then none else some (.registry (.noRow l))
  | grammar => (find? r.rows l).bind fun row => faultOf (heldGrammar packages l r row)
  | highlights => (find? r.rows l).bind fun row =>
      if (find? r.queries l).isSome then none else row.firstFault? packages row.highlightQueries
  | injections => (find? r.rows l).bind fun row => row.firstFault? packages row.injectionQueries
  | locals => (find? r.rows l).bind fun row => row.firstFault? packages row.localsQueries
  | compilation => (find? r.rows l).bind fun row =>
      (heldGrammar packages l r row).toOption.bind fun g =>
        refusal? l (g.compile (source packages l r row))

/-- The fault of the first stage that fails, of those up to this one. -/
def firstFault? (packages : Packages) (l : Language) (r : Registry) (stage : Stage) :
    Option Polyglot.Fault :=
  stage.upTo.findSome? (fault? packages l r)

end Stage

/-! ## The outcome -/

/-- The configuration that is made of a text that compiles: no capture is mapped unless names are
given. -/
def finished (source : String) (captures : List String) (names : Option (List String)) :
    Highlight :=
  let compiled : Highlight := { source, captures, indices := captures.map fun _ => none }
  match names with
  | none => compiled
  | some names => compiled.configure names

/-- What is left to do when grammar and highlight query are there. -/
def highlightRest (packages : Packages) (l : Language) (names : Option (List String)) (g : Grammar)
    (highlights : String) : Action Registry Highlight := do
  let injections ← injectionQuery packages l
  let locals ← localsQuery packages l
  let compiled ← Action.ofExcept (Row.guarded l Raised.Group.all .invalidQuery
    (Highlight.compile g (Highlight.combine injections locals highlights)))
  let h ← match names with
    | some names => configureHighlight compiled names
    | none => pure compiled
  Action.say (.highlightCreated l h.captures.length)
  return h

theorem makeHighlight_eq (packages : Packages) (l : Language) (names : Option (List String)) :
    makeHighlight packages l names =
      grammar packages l >>= fun g => highlightQuery packages l >>=
        highlightRest packages l names g := rfl

/-- What the last three stages come to; they change nothing. -/
def restResult (packages : Packages) (l : Language) (names : Option (List String)) (row : Row)
    (g : Grammar) (highlights : String) : Except Polyglot.Fault Highlight :=
  let source := Stage.sourceOf (row.joined packages row.injectionQueries)
    (row.joined packages row.localsQueries) highlights
  match row.firstFault? packages row.injectionQueries,
      row.firstFault? packages row.localsQueries, g.compile source with
  | some fault, _, _ => .error fault
  | none, some fault, _ => .error fault
  | none, none, .error e => .error (.grammar { language := l, problem := .invalidQuery e })
  | none, none, .ok captures => .ok (finished source captures names)

section Outcome

variable {packages : Packages} {r : Registry} {l : Language} {row : Row}

theorem highlightRest_eq (hrow : find? r.rows l = some row) (names : Option (List String))
    (g : Grammar) (highlights : String) :
    (highlightRest packages l names g highlights r).state = r ∧
      (highlightRest packages l names g highlights r).result =
        restResult packages l names row g highlights := by
  have hinjections : injectionQuery packages l r = _ := injectionQuery_eq hrow
  have hlocals : localsQuery packages l r = _ := localsQuery_eq hrow
  rw [Row.readQueries_eq] at hinjections hlocals
  rw [restResult, highlightRest]
  cases hi : row.firstFault? packages row.injectionQueries with
  | some fault =>
      rw [hi] at hinjections
      rw [Action.bind_of_error (e := fault) (by rw [hinjections]), hinjections]
      exact ⟨rfl, rfl⟩
  | none =>
      rw [hi] at hinjections
      rw [Action.bind_of_ok (by rw [hinjections]), hinjections]
      dsimp only
      cases hl : row.firstFault? packages row.localsQueries with
      | some fault =>
          rw [hl] at hlocals
          rw [Action.bind_of_error (e := fault) (by rw [hlocals]), hlocals]
          exact ⟨rfl, rfl⟩
      | none =>
          rw [hl] at hlocals
          rw [Action.bind_of_ok (by rw [hlocals]), hlocals]
          rw [Row.guarded_all, Highlight.compile, Stage.sourceOf, Highlight.combine]
          dsimp only
          cases g.compile _ with
          | error e => exact ⟨rfl, rfl⟩
          | ok captures => cases names <;> exact ⟨rfl, rfl⟩

/-- How far a call gets, with what it comes to and the registry that it leaves. -/
inductive Passage (packages : Packages) (l : Language) (names : Option (List String))
    (r : Registry) : Except Polyglot.Fault Highlight → Registry → Prop where
  | noRow (missing : find? r.rows l = none) :
      Passage packages l names r (.error (.registry (.noRow l))) r
  | noGrammar {row : Row} {fault : Polyglot.Fault} (present : find? r.rows l = some row)
      (fails : heldGrammar packages l r row = .error fault) :
      Passage packages l names r (.error fault) r
  | noQuery {row : Row} {g : Grammar} {fault : Polyglot.Fault}
      (present : find? r.rows l = some row) (held : heldGrammar packages l r row = .ok g)
      (fails : heldQuery packages l r row = .error fault) :
      Passage packages l names r (.error fault) { r with grammars := insert r.grammars l g }
  | rest {row : Row} {g : Grammar} {text : String} (present : find? r.rows l = some row)
      (held : heldGrammar packages l r row = .ok g) (read : heldQuery packages l r row = .ok text) :
      Passage packages l names r (restResult packages l names row g text)
        { r with grammars := insert r.grammars l g, queries := insert r.queries l text }

theorem passage_makeHighlight (packages : Packages) (l : Language) (names : Option (List String))
    (r : Registry) :
    Passage packages l names r (makeHighlight packages l names r).result
      (makeHighlight packages l names r).state := by
  cases hrow : find? r.rows l with
  | none =>
      rw [makeHighlight_of_noRow hrow]
      exact .noRow hrow
  | some row =>
      rw [makeHighlight_eq]
      cases hgrammar : heldGrammar packages l r row with
      | error fault =>
          have hfails := grammar_of_error hrow hgrammar
          rw [Action.bind_of_error (e := fault) (by rw [hfails]), hfails]
          exact .noGrammar hrow hgrammar
      | ok g =>
          obtain ⟨hresult, hstate⟩ := grammar_of_ok hrow hgrammar
          rw [Action.bind_of_ok hresult, hstate]
          -- The registry has one grammar more, and its rows and queries are those of before.
          cases hquery : heldQuery packages l r row with
          | error fault =>
              have hfails := highlightQuery_of_error
                (r := { r with grammars := insert r.grammars l g }) hrow hquery
              rw [Action.bind_of_error (e := fault) (by rw [hfails]), hfails]
              exact .noQuery hrow hgrammar hquery
          | ok text =>
              obtain ⟨hresult', hstate'⟩ := highlightQuery_of_ok
                (r := { r with grammars := insert r.grammars l g }) hrow hquery
              rw [Action.bind_of_ok hresult', hstate']
              obtain ⟨hrest, hresult''⟩ := @highlightRest_eq packages
                { r with grammars := insert r.grammars l g, queries := insert r.queries l text }
                l row hrow names g text
              rw [hrest, hresult'']
              exact .rest hrow hgrammar hquery

end Outcome

/-! ## The first stage that fails -/

section First

variable {packages : Packages} {r : Registry} {l : Language} {row : Row} {fault : Polyglot.Fault}

theorem firstFault?_of_noRow (h : find? r.rows l = none) (stage : Stage) :
    stage.firstFault? packages l r = some (.registry (.noRow l)) := by
  have hrow : Stage.row.fault? packages l r = some (.registry (.noRow l)) := by
    rw [Stage.fault?, contains, Table.contains_eq_false_iff.mpr h]
    rfl
  cases stage <;> rw [Stage.firstFault?, Stage.upTo, List.findSome?_cons, hrow]

theorem firstFault?_grammar (hrow : find? r.rows l = some row) :
    Stage.grammar.firstFault? packages l r = faultOf (heldGrammar packages l r row) := by
  simp only [Stage.firstFault?, Stage.upTo, List.findSome?_cons, List.findSome?_nil, Stage.fault?,
    contains_of_find? hrow, hrow, if_true, Option.bind_some]
  cases faultOf (heldGrammar packages l r row) <;> rfl

theorem firstFault?_highlights (hrow : find? r.rows l = some row) :
    Stage.highlights.firstFault? packages l r =
      (faultOf (heldGrammar packages l r row)).or (faultOf (heldQuery packages l r row)) := by
  have hupTo : Stage.highlights.upTo = Stage.grammar.upTo ++ [.highlights] := rfl
  rw [Stage.firstFault?, hupTo, List.findSome?_append]
  refine congrArg₂ Option.or (firstFault?_grammar hrow) ?_
  rw [List.findSome?_singleton, Stage.fault?, hrow, Option.bind_some, faultOf_heldQuery]

/-- A stage that fails stays the first to fail when more stages are looked at. -/
theorem firstFault?_compilation (h : Stage.highlights.firstFault? packages l r = some fault) :
    Stage.compilation.firstFault? packages l r = some fault := by
  rw [Stage.firstFault?] at h ⊢
  rw [Stage.upTo_compilation, List.findSome?_append, h, Option.some_or]

/-- The highlight query is the text that was kept, and where there is none the files of the row. -/
theorem eq_of_heldQuery {text : String} (h : heldQuery packages l r row = .ok text) :
    text = (find? r.queries l).getD (row.joined packages row.highlightQueries) := by
  rw [heldQuery] at h
  cases hkept : find? r.queries l with
  | some kept =>
      rw [hkept] at h
      exact (Except.ok.inj h).symm
  | none =>
      rw [hkept] at h
      dsimp only at h
      rw [Row.readQueries_eq] at h
      cases hfirst : row.firstFault? packages row.highlightQueries with
      | some fault =>
          rw [hfirst] at h
          cases h
      | none =>
          rw [hfirst] at h
          exact (Except.ok.inj h).symm

theorem firstFault?_compilation_of_ok (hrow : find? r.rows l = some row) {g : Grammar}
    {text : String} (hgrammar : heldGrammar packages l r row = .ok g)
    (hquery : heldQuery packages l r row = .ok text) (names : Option (List String)) :
    Stage.compilation.firstFault? packages l r =
      faultOf (restResult packages l names row g text) := by
  have hbefore : Stage.highlights.upTo.findSome? (Stage.fault? packages l r) = none := by
    have hfirst : Stage.highlights.firstFault? packages l r = _ := firstFault?_highlights hrow
    rw [hgrammar, hquery] at hfirst
    exact hfirst
  rw [Stage.firstFault?, Stage.upTo_compilation, List.findSome?_append, hbefore, Option.none_or,
    restResult]
  simp only [List.findSome?_cons, List.findSome?_nil, Stage.fault?, hrow, Option.bind_some, hgrammar,
    Except.toOption, Stage.source, ← eq_of_heldQuery hquery]
  cases row.firstFault? packages row.injectionQueries with
  | some fault => rfl
  | none =>
      cases row.firstFault? packages row.localsQueries with
      | some fault => rfl
      | none => cases g.compile _ <;> rfl

theorem eq_of_restResult {names : Option (List String)} {g : Grammar} {text : String}
    {h : Highlight} (hquery : heldQuery packages l r row = .ok text)
    (hrest : restResult packages l names row g text = .ok h) :
    ∃ captures, g.compile (Stage.source packages l r row) = .ok captures ∧
      h = finished (Stage.source packages l r row) captures names := by
  rw [Stage.source, ← eq_of_heldQuery hquery]
  rw [restResult] at hrest
  split at hrest
  · cases hrest
  · cases hrest
  · cases hrest
  · rename_i captures _ _ hcompiled
    exact ⟨captures, hcompiled, (Except.ok.inj hrest).symm⟩

end First

/-- The outcome of a call by its stages.  The first that fails gives its fault, and if none does, the
configuration is made of what they gave.  The grammar is kept if the stages up to it pass, and the
highlight query likewise; rows and routes stay as they are. -/
def Staged (packages : Packages) (l : Language) (names : Option (List String)) (r : Registry)
    (result : Except Polyglot.Fault Highlight) (after : Registry) : Prop :=
  after.rows = r.rows ∧ after.routes = r.routes ∧
  (if Stage.grammar.firstFault? packages l r = none then
    ∃ row g, find? r.rows l = some row ∧ heldGrammar packages l r row = .ok g ∧
      after.grammars = insert r.grammars l g
  else after.grammars = r.grammars) ∧
  (if Stage.highlights.firstFault? packages l r = none then
    ∃ row, find? r.rows l = some row ∧
      after.queries = insert r.queries l
        ((find? r.queries l).getD (row.joined packages row.highlightQueries))
  else after.queries = r.queries) ∧
  match Stage.compilation.firstFault? packages l r with
  | some fault => result = .error fault
  | none => ∃ row g captures, find? r.rows l = some row ∧ heldGrammar packages l r row = .ok g ∧
      g.compile (Stage.source packages l r row) = .ok captures ∧
      result = .ok (finished (Stage.source packages l r row) captures names)

theorem Passage.staged {packages : Packages} {l : Language} {names : Option (List String)}
    {r after : Registry} {result : Except Polyglot.Fault Highlight}
    (h : Passage packages l names r result after) : Staged packages l names r result after := by
  cases h with
  | noRow missing =>
      simp only [Staged, firstFault?_of_noRow missing, reduceCtorEq, if_false, and_self]
  | @noGrammar row fault present fails =>
      have hgrammar : Stage.grammar.firstFault? packages l r = some fault := by
        rw [firstFault?_grammar present, fails, faultOf]
      have hhighlights : Stage.highlights.firstFault? packages l r = some fault := by
        rw [firstFault?_highlights present, fails, faultOf, Option.some_or]
      simp only [Staged, hgrammar, hhighlights, firstFault?_compilation hhighlights, reduceCtorEq,
        if_false, and_self]
  | @noQuery row g fault present held fails =>
      have hgrammar : Stage.grammar.firstFault? packages l r = none := by
        rw [firstFault?_grammar present, held, faultOf]
      have hhighlights : Stage.highlights.firstFault? packages l r = some fault := by
        rw [firstFault?_highlights present, held, fails, faultOf, faultOf, Option.none_or]
      simp only [Staged, hgrammar, hhighlights, firstFault?_compilation hhighlights, reduceCtorEq,
        if_false, if_true, true_and, and_true]
      exact ⟨row, g, present, held, rfl⟩
  | @rest row g text present held read =>
      have hgrammar : Stage.grammar.firstFault? packages l r = none := by
        rw [firstFault?_grammar present, held, faultOf]
      have hhighlights : Stage.highlights.firstFault? packages l r = none := by
        rw [firstFault?_highlights present, held, read, faultOf, faultOf, Option.none_or]
      simp only [Staged, hgrammar, hhighlights, if_true, true_and]
      refine ⟨⟨row, g, present, held, rfl⟩, ⟨row, present, by rw [← eq_of_heldQuery read]⟩, ?_⟩
      rw [firstFault?_compilation_of_ok present held read names]
      cases hrest : restResult packages l names row g text with
      | error fault => rfl
      | ok h =>
          obtain ⟨captures, hcompiled, rfl⟩ := eq_of_restResult read hrest
          exact ⟨row, g, captures, present, held, hcompiled, rfl⟩

end Registry

namespace Workspace

open Registry (Staged)

/-- With a registry that has rows, a highlight configuration is made stage by stage, and nothing but
that registry changes. -/
theorem makeHighlight_in_stages {w : Workspace} (hfull : w.registry.isEmpty = false) (l : Language)
    (names : Option (List String)) :
    ∃ after, (makeHighlight true l names w).state = w.putRegistry w.inUse after ∧
      Staged w.packages l names w.registry (makeHighlight true l names w).result after := by
  have htarget : w.workTarget true = w.inUse := by
    rw [workTarget, hfull]
    rfl
  rw [makeHighlight, work_eq, htarget, onRegistry_eq]
  exact ⟨_, rfl, (Registry.passage_makeHighlight w.packages l names w.registry).staged⟩

namespace Sample

/-- A row with files for all its queries, one of which its package does not have. -/
def injecting : Row :=
  { Row.rust with highlightQueries := ["a.scm", "b.scm"], injectionQueries := ["a.scm", "c.scm"] }

def incomplete : Workspace where
  own := Registry.run Registry.empty [.register injecting]
  packages :=
    [("tree_sitter_rust",
      { attributes := [("language", .ok (.function (.ok grammar)))],
        files := [("a.scm", .ok "(a)"), ("b.scm", .ok "(b)")] })]

end Sample

/-- A stage that fails late leaves what the stages before it have loaded. -/
theorem makeHighlight_in_stages_incomplete :
    Sample.incomplete.registry.isEmpty = false ∧
      (makeHighlight true .rust (some ["a"]) Sample.incomplete).result = .error (.grammar
        { language := .rust,
          problem := .queryMissing "c.scm" "tree_sitter_rust" .noFile }) ∧
      (makeHighlight true .rust (some ["a"]) Sample.incomplete).state.own.grammars =
        [(.rust, Sample.grammar)] ∧
      (makeHighlight true .rust (some ["a"]) Sample.incomplete).state.own.queries =
        [(.rust, "(a)\n(b)")] := by
  have hfull : Sample.incomplete.registry.isEmpty = false := by decide +kernel
  obtain ⟨after, hstate, -, -, hgrammars, hqueries, hresult⟩ :=
    makeHighlight_in_stages hfull .rust (some ["a"])
  rw [if_pos (by decide +kernel)] at hgrammars hqueries
  have hrow : find? Sample.incomplete.registry.rows .rust = some Sample.injecting := by
    decide +kernel
  obtain ⟨row, g, hfound, hheld, hkept⟩ := hgrammars
  obtain rfl := Option.some.inj (hrow.symm.trans hfound)
  obtain ⟨row, hfound, hread⟩ := hqueries
  obtain rfl := Option.some.inj (hrow.symm.trans hfound)
  have hfault : Registry.Stage.compilation.firstFault? Sample.incomplete.packages .rust
      Sample.incomplete.registry = some (.grammar
        { language := .rust,
          problem := .queryMissing "c.scm" "tree_sitter_rust" .noFile }) := by
    decide +kernel
  rw [hfault] at hresult
  rw [hstate]
  refine ⟨hfull, hresult, hkept.trans ?_, hread.trans ?_⟩
  · obtain rfl : Sample.grammar = g := Except.ok.inj hheld
    rfl
  · decide +kernel

end Workspace
end Polyglot
