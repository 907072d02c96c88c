/-
How a row that does not match the packages is reported.

A request takes its steps in order: it looks for the grammar function, calls it, reads files, binds a
parser or compiles.  `Raises` says for each step, by the tables of the packages alone, which exception
it ends in.  A request fails just if one of its steps raises, and with the exception of the first that
does (`mismatch_is_reported`).  The handler around a step makes a fault of the row's grammar of the
groups it names and lets all others pass.
-/
import Polyglot.Proofs.Registry.Cache
import Polyglot.Proofs.Registry.Stages

namespace Polyglot

open Table (find?)

namespace Registry

/-! ## Steps and what they raise -/

inductive Step where
  | look
  | call
  | read (file : String)
  | bind
  | compile
deriving DecidableEq, Repr

namespace Step

/-- The exceptions that the handler around a step names. -/
def groups : Step → List Raised.Group
  | look => [.importing, .lookup]
  | call | bind => [.value]
  | read _ => [.importing, .system]
  | compile => Raised.Group.all

def problem (row : Row) : Step → Raised → Grammar.Problem
  | look => .unavailable row.name row.grammarModule row.grammarFunction
  | call => .incompatible row.name
  | read file => .queryMissing file row.grammarModule
  | bind => .unbindable
  | compile => .invalidQuery

theorem cause_problem (l : Language) (row : Row) (step : Step) (e : Raised) :
    (Grammar.Fault.mk l (step.problem row e)).cause = e := by
  cases step <;> rfl

end Step

/-- The grammar that a registry has kept for a row, or else the one that the packages offer. -/
def InHand (packages : Packages) (r : Registry) (row : Row) (g : Grammar) : Prop :=
  find? r.grammars row.language = some g ∨
    (find? r.grammars row.language = none ∧ row.OffersGrammar packages g)

/-- The highlight query that a registry has kept for a row, or else the one that the packages
offer. -/
def TextInHand (packages : Packages) (r : Registry) (row : Row) (text : String) : Prop :=
  find? r.queries row.language = some text ∨
    (find? r.queries row.language = none ∧ row.OffersText packages row.highlightQueries text)

/-- The exception that a step ends in.  A step that needs what an earlier one has not given raises
nothing. -/
inductive Raises (packages : Packages) (r : Registry) (row : Row) : Step → Raised → Prop where
  | noImport {e : Raised} (h : row.ImportRaises packages e) : Raises packages r row .look e
  | noName {package : Package} (imports : row.Imports packages package)
      (h : find? package.attributes row.grammarFunction = none) :
      Raises packages r row .look .noAttribute
  | badName {package : Package} {e : Raised} (imports : row.Imports packages package)
      (h : find? package.attributes row.grammarFunction = some (.error e)) :
      Raises packages r row .look e
  | noFunction {package : Package} (imports : row.Imports packages package)
      (h : find? package.attributes row.grammarFunction = some (.ok .value)) :
      Raises packages r row .call .badType
  | refusedCall {package : Package} {e : Raised} (imports : row.Imports packages package)
      (h : find? package.attributes row.grammarFunction = some (.ok (.function (.error e)))) :
      Raises packages r row .call e
  | noImportForFile {file : String} {e : Raised} (h : row.ImportRaises packages e) :
      Raises packages r row (.read file) e
  | noFiles {file : String} {package : Package} (imports : row.Imports packages package)
      (h : package.holdsFiles = false) : Raises packages r row (.read file) .badType
  | badFileName {file : String} {package : Package} (imports : row.Imports packages package)
      (holds : package.holdsFiles = true) (h : '\x00' ∈ file.toList) :
      Raises packages r row (.read file) .badValue
  | noFile {file : String} {package : Package} (imports : row.Imports packages package)
      (mayHold : package.MayHold file) (h : find? package.files file = none) :
      Raises packages r row (.read file) .noFile
  | badFile {file : String} {package : Package} {e : Raised}
      (imports : row.Imports packages package) (mayHold : package.MayHold file)
      (h : find? package.files file = some (.error e)) : Raises packages r row (.read file) e
  | refusedParser {g : Grammar} {e : Raised} (inHand : InHand packages r row g)
      (h : g.parser = .error e) : Raises packages r row .bind e
  | refusedText {g : Grammar} {injections locals highlights : String} {e : Raised}
      (inHand : InHand packages r row g) (textInHand : TextInHand packages r row highlights)
      (injected : row.OffersText packages row.injectionQueries injections)
      (localized : row.OffersText packages row.localsQueries locals)
      (h : g.compile (Stage.sourceOf injections locals highlights) = .error e) :
      Raises packages r row .compile e

/-- The first of some steps that raises, with its exception. -/
inductive Stops (packages : Packages) (r : Registry) (row : Row) :
    List Step → Step → Raised → Prop where
  | here {step : Step} {rest : List Step} {e : Raised} (h : Raises packages r row step e) :
      Stops packages r row (step :: rest) step e
  | later {first step : Step} {rest : List Step} {e : Raised}
      (passes : ∀ e', ¬ Raises packages r row first e') (h : Stops packages r row rest step e) :
      Stops packages r row (first :: rest) step e

/-- What a step that raises is reported as. -/
def Step.report (row : Row) (step : Step) (e : Raised) : Polyglot.Fault :=
  if e.group ∈ step.groups then .grammar { language := row.language, problem := step.problem row e }
  else .raised e

/-! ## Steps one after the other -/

section Steps

variable {packages : Packages} {r : Registry} {row : Row} {a b : List Step} {step : Step}
  {e : Raised}

theorem stops_singleton {step' : Step} :
    Stops packages r row [step'] step e ↔ step = step' ∧ Raises packages r row step e := by
  constructor
  · rintro (h | ⟨-, h⟩)
    · exact ⟨rfl, h⟩
    · cases h
  · rintro ⟨rfl, h⟩
    exact .here h

theorem Stops.append_right (h : Stops packages r row a step e) (b : List Step) :
    Stops packages r row (a ++ b) step e := by
  induction h with
  | here h => exact .here h
  | later passes _ ih => exact .later passes ih

/-- Steps that do not stop a request let the steps after them stop it. -/
theorem stops_append_iff (hpass : ∀ s e, ¬ Stops packages r row a s e) :
    Stops packages r row (a ++ b) step e ↔ Stops packages r row b step e := by
  induction a with
  | nil => exact Iff.rfl
  | cons first rest ih =>
      have hfirst : ∀ e', ¬ Raises packages r row first e' := fun e' h => hpass first e' (.here h)
      have hrest := ih fun s e' h => hpass s e' (.later hfirst h)
      constructor
      · rintro (h | ⟨-, h⟩)
        · exact absurd h (hfirst _)
        · exact hrest.mp h
      · exact fun h => .later hfirst (hrest.mpr h)

/-- What comes after a step that raises is not reached. -/
theorem stops_append_iff_of_stops {step' : Step} {e' : Raised}
    (hstops : Stops packages r row a step' e') :
    Stops packages r row (a ++ b) step e ↔ Stops packages r row a step e := by
  refine ⟨fun h => ?_, fun h => h.append_right b⟩
  induction hstops with
  | here hraises =>
      rcases h with h | ⟨passes, -⟩
      · exact .here h
      · exact absurd hraises (passes _)
  | later passes _ ih =>
      rcases h with h | ⟨-, h⟩
      · exact absurd h (passes _)
      · exact .later passes (ih h)

end Steps

/-- A result that is an error just if one of the steps raises, and then the report of the first. -/
def Explains (packages : Packages) (r : Registry) (row : Row) {α : Type} (steps : List Step)
    (x : Except Polyglot.Fault α) : Prop :=
  ∀ fault, x = .error fault ↔
    ∃ step e, Stops packages r row steps step e ∧ fault = step.report row e

namespace Explains

variable {packages : Packages} {r : Registry} {row : Row} {α β : Type} {a b : List Step}
  {x : Except Polyglot.Fault α}

theorem nil (v : α) : Explains packages r row [] (.ok v : Except Polyglot.Fault α) := by
  refine fun fault => iff_of_false (fun h => nomatch h) ?_
  rintro ⟨step, e, h, -⟩
  cases h

theorem map (h : Explains packages r row a x) (f : α → β) : Explains packages r row a (x.map f) := by
  cases x with
  | error fault' => exact fun fault => Iff.trans (by simp [Except.map]) (h fault)
  | ok v => exact fun fault => Iff.trans (by simp [Except.map]) (h fault)

theorem not_stops {v : α} (h : Explains packages r row a (.ok v)) (step : Step) (e : Raised) :
    ¬ Stops packages r row a step e :=
  fun hstops => nomatch (h (step.report row e)).mpr ⟨step, e, hstops, rfl⟩

/-- Steps that raise nothing give their result to those that come after them. -/
theorem bind {f : α → Except Polyglot.Fault β} (hx : Explains packages r row a x)
    (hf : ∀ v, x = .ok v → Explains packages r row b (f v)) :
    Explains packages r row (a ++ b) (x >>= f) := by
  cases x with
  | error fault' =>
      obtain ⟨step', e', hstops, -⟩ := (hx fault').mp rfl
      intro fault
      simp only [stops_append_iff_of_stops hstops]
      exact Iff.trans (by simp [Bind.bind, Except.bind]) (hx fault)
  | ok v =>
      intro fault
      simp only [stops_append_iff hx.not_stops]
      exact hf v rfl fault

/-- One step behind its handler. -/
theorem guarded (step : Step) {y : Except Raised α}
    (h : ∀ e, y = .error e ↔ Raises packages r row step e) :
    Explains packages r row [step]
      (Row.guarded row.language step.groups (step.problem row) y) := by
  intro fault
  rw [Row.guarded_eq_error_iff]
  constructor
  · rintro ⟨e, hy, hfault⟩
    exact ⟨step, e, stops_singleton.mpr ⟨rfl, (h e).mp hy⟩, hfault⟩
  · rintro ⟨step', e, hstops, hfault⟩
    obtain ⟨rfl, hraises⟩ := stops_singleton.mp hstops
    exact ⟨e, (h e).mpr hraises, hfault⟩

end Explains

/-! ## What each step raises -/

section Raises

variable {packages : Packages} {r : Registry} {row : Row}

theorem imports_unique {p q : Package} (hp : row.Imports packages p) (hq : row.Imports packages q) :
    p = q :=
  Option.some.inj (hp.found.symm.trans hq.found)

theorem raises_look_iff {e : Raised} :
    (row.package packages >>= fun package => package.lookup row.grammarFunction) = .error e ↔
      Raises packages r row .look e := by
  simp only [bind_eq_error_iff, Row.package_eq_error_iff, Row.package_eq_ok_iff,
    Package.lookup_eq_error_iff]
  constructor
  · rintro (h | ⟨p, himports, ⟨h, rfl⟩ | h⟩)
    · exact .noImport h
    · exact .noName himports h
    · exact .badName himports h
  · intro h
    cases h with
    | noImport h => exact .inl h
    | noName himports h => exact .inr ⟨_, himports, .inl ⟨h, rfl⟩⟩
    | badName himports h => exact .inr ⟨_, himports, .inr h⟩

theorem raises_call_iff {held : Attribute}
    (hheld : (row.package packages >>= fun package => package.lookup row.grammarFunction) = .ok held)
    {e : Raised} : held.call = .error e ↔ Raises packages r row .call e := by
  simp only [bind_eq_ok_iff, Row.package_eq_ok_iff, Package.lookup_eq_ok_iff] at hheld
  obtain ⟨p, himports, hfound⟩ := hheld
  rw [Attribute.call_eq_error_iff]
  constructor
  · rintro (⟨rfl, rfl⟩ | rfl)
    · exact .noFunction himports hfound
    · exact .refusedCall himports hfound
  · intro h
    cases h with
    | noFunction himports' h =>
        rw [← imports_unique himports himports', hfound] at h
        exact .inl ⟨Except.ok.inj (Option.some.inj h), rfl⟩
    | refusedCall himports' h =>
        rw [← imports_unique himports himports', hfound] at h
        exact .inr (Except.ok.inj (Option.some.inj h))

theorem raises_read_iff {file : String} {e : Raised} :
    (row.package packages >>= fun package => package.read file) = .error e ↔
      Raises packages r row (.read file) e := by
  simp only [bind_eq_error_iff, Row.package_eq_error_iff, Row.package_eq_ok_iff,
    Package.read_eq_error_iff]
  constructor
  · rintro (h | ⟨p, himports, ⟨h, rfl⟩ | ⟨hholds, h, rfl⟩ | ⟨hmay, h, rfl⟩ | ⟨hmay, h⟩⟩)
    · exact .noImportForFile h
    · exact .noFiles himports h
    · exact .badFileName himports hholds h
    · exact .noFile himports hmay h
    · exact .badFile himports hmay h
  · intro h
    cases h with
    | noImportForFile h => exact .inl h
    | noFiles himports h => exact .inr ⟨_, himports, .inl ⟨h, rfl⟩⟩
    | badFileName himports hholds h => exact .inr ⟨_, himports, .inr (.inl ⟨hholds, h, rfl⟩)⟩
    | noFile himports hmay h => exact .inr ⟨_, himports, .inr (.inr (.inl ⟨hmay, h, rfl⟩))⟩
    | badFile himports hmay h => exact .inr ⟨_, himports, .inr (.inr (.inr ⟨hmay, h⟩))⟩

theorem heldGrammar_eq_ok_iff {g : Grammar} :
    heldGrammar packages row.language r row = .ok g ↔ InHand packages r row g := by
  rw [heldGrammar, InHand]
  cases find? r.grammars row.language <;> simp [Row.loadGrammar_eq_ok_iff]

theorem heldQuery_eq_ok_iff {text : String} :
    heldQuery packages row.language r row = .ok text ↔ TextInHand packages r row text := by
  rw [heldQuery, TextInHand]
  cases find? r.queries row.language <;> simp [Row.readQueries_eq_ok_iff]

theorem raises_bind_iff {g : Grammar} (hg : heldGrammar packages row.language r row = .ok g)
    {e : Raised} : g.parser = .error e ↔ Raises packages r row .bind e := by
  constructor
  · exact fun h => .refusedParser (heldGrammar_eq_ok_iff.mp hg) h
  · intro h
    cases h with
    | refusedParser hinHand h =>
        obtain rfl := Except.ok.inj (hg.symm.trans (heldGrammar_eq_ok_iff.mpr hinHand))
        exact h

theorem raises_compile_iff {g : Grammar} {injections locals highlights : String}
    (hg : heldGrammar packages row.language r row = .ok g)
    (hh : heldQuery packages row.language r row = .ok highlights)
    (hi : row.readQueries packages row.injectionQueries = .ok injections)
    (hl : row.readQueries packages row.localsQueries = .ok locals) {e : Raised} :
    g.compile (Stage.sourceOf injections locals highlights) = .error e ↔
      Raises packages r row .compile e := by
  constructor
  · exact fun h => .refusedText (heldGrammar_eq_ok_iff.mp hg) (heldQuery_eq_ok_iff.mp hh)
      (Row.readQueries_eq_ok_iff.mp hi) (Row.readQueries_eq_ok_iff.mp hl) h
  · intro h
    cases h with
    | refusedText hinHand htext hinjected hlocalized h =>
        obtain rfl := Except.ok.inj (hg.symm.trans (heldGrammar_eq_ok_iff.mpr hinHand))
        obtain rfl := Except.ok.inj (hh.symm.trans (heldQuery_eq_ok_iff.mpr htext))
        obtain rfl := Except.ok.inj (hi.symm.trans (Row.readQueries_eq_ok_iff.mpr hinjected))
        obtain rfl := Except.ok.inj (hl.symm.trans (Row.readQueries_eq_ok_iff.mpr hlocalized))
        exact h

end Raises

/-! ## Requests -/

/-- What is asked of a registry that takes something from the packages. -/
inductive Request where
  | grammar
  | highlightQuery
  | injectionQuery
  | localsQuery
  | parser
  | highlight (names : Option (List String))

/-- A grammar that is kept is neither looked for nor called. -/
def grammarSteps (r : Registry) (row : Row) : List Step :=
  if (find? r.grammars row.language).isSome then [] else [.look, .call]

/-- A highlight query that is kept is not read again. -/
def highlightSteps (r : Registry) (row : Row) : List Step :=
  if (find? r.queries row.language).isSome then [] else row.highlightQueries.map .read

namespace Request

/-- The steps of a request, in their order. -/
def steps (r : Registry) (row : Row) : Request → List Step
  | grammar => grammarSteps r row
  | highlightQuery => highlightSteps r row
  | injectionQuery => row.injectionQueries.map .read
  | localsQuery => row.localsQueries.map .read
  | parser => grammarSteps r row ++ [.bind]
  | highlight _ => grammarSteps r row ++ (highlightSteps r row ++
      (row.injectionQueries.map .read ++ (row.localsQueries.map .read ++ [.compile])))

/-- The fault that a request for a language ends in, if it does. -/
def fault? (packages : Packages) (l : Language) (r : Registry) : Request → Option Polyglot.Fault
  | grammar => faultOf (Registry.grammar packages l r).result
  | highlightQuery => faultOf (Registry.highlightQuery packages l r).result
  | injectionQuery => faultOf (Registry.injectionQuery packages l r).result
  | localsQuery => faultOf (Registry.localsQuery packages l r).result
  | parser => faultOf (makeParser packages l r).result
  | highlight names => faultOf (makeHighlight packages l names r).result

end Request

section Explained

variable {packages : Packages} {r : Registry} {row : Row}

theorem explains_loadGrammar :
    Explains packages r row [.look, .call] (row.loadGrammar packages) := by
  refine Explains.bind (a := [.look]) (b := [.call])
    (Explains.guarded .look fun e => raises_look_iff) fun held hheld => ?_
  exact Explains.guarded .call fun e => raises_call_iff (Row.guarded_eq_ok_iff.mp hheld)

theorem explains_heldGrammar :
    Explains packages r row (grammarSteps r row) (heldGrammar packages row.language r row) := by
  rw [grammarSteps, heldGrammar]
  cases find? r.grammars row.language with
  | some g => exact Explains.nil g
  | none => exact explains_loadGrammar

theorem explains_mapM_readQuery (files : List String) :
    Explains packages r row (files.map .read) (files.mapM (row.readQuery packages)) := by
  induction files with
  | nil => exact Explains.nil []
  | cons file rest ih =>
      rw [List.mapM_cons]
      refine Explains.bind (a := [.read file])
        (Explains.guarded (.read file) fun e => raises_read_iff) fun text _ => ?_
      exact ih.map (text :: ·)

theorem explains_readQueries (files : List String) :
    Explains packages r row (files.map .read) (row.readQueries packages files) :=
  (explains_mapM_readQuery files).map _

theorem explains_heldQuery :
    Explains packages r row (highlightSteps r row) (heldQuery packages row.language r row) := by
  rw [highlightSteps, heldQuery]
  cases find? r.queries row.language with
  | some text => exact Explains.nil text
  | none => exact explains_readQueries _

theorem result_grammar (hrow : find? r.rows row.language = some row) :
    (grammar packages row.language r).result = heldGrammar packages row.language r row := by
  cases h : heldGrammar packages row.language r row with
  | error fault => rw [grammar_of_error hrow h]
  | ok g => exact (grammar_of_ok hrow h).1

theorem result_highlightQuery (hrow : find? r.rows row.language = some row) :
    (highlightQuery packages row.language r).result = heldQuery packages row.language r row := by
  cases h : heldQuery packages row.language r row with
  | error fault => rw [highlightQuery_of_error hrow h]
  | ok text => exact (highlightQuery_of_ok hrow h).1

theorem explains_makeParser (hrow : find? r.rows row.language = some row) :
    Explains packages r row (grammarSteps r row ++ [.bind])
      (makeParser packages row.language r).result := by
  have hresult : (makeParser packages row.language r).result =
      heldGrammar packages row.language r row >>= fun g =>
        (Row.guarded row.language (Step.groups .bind) (Step.problem row .bind) g.parser).map
          fun _ => g := by
    rw [makeParser, ← result_grammar hrow]
    cases h : (grammar packages row.language r).result with
    | error fault =>
        rw [Action.bind_of_error h]
        rfl
    | ok g =>
        rw [Action.bind_of_ok h]
        show _ = Except.map _ (Row.guarded row.language [.value] .unbindable g.parser)
        cases Row.guarded row.language [.value] .unbindable g.parser <;> rfl
  rw [hresult]
  refine Explains.bind explains_heldGrammar fun g hg => Explains.map ?_ _
  exact Explains.guarded .bind fun e => raises_bind_iff hg

/-- What is left to do when grammar and highlight query are there. -/
theorem explains_restResult {g : Grammar} {text : String}
    (hg : heldGrammar packages row.language r row = .ok g)
    (hh : heldQuery packages row.language r row = .ok text) (names : Option (List String)) :
    Explains packages r row
      (row.injectionQueries.map .read ++ (row.localsQueries.map .read ++ [.compile]))
      (restResult packages row.language names row g text) := by
  have hresult : restResult packages row.language names row g text =
      row.readQueries packages row.injectionQueries >>= fun injections =>
        row.readQueries packages row.localsQueries >>= fun locals =>
          (Row.guarded row.language (Step.groups .compile) (Step.problem row .compile)
            (g.compile (Stage.sourceOf injections locals text))).map fun captures =>
              finished (Stage.sourceOf injections locals text) captures names := by
    rw [restResult, Row.readQueries_eq, Row.readQueries_eq]
    cases row.firstFault? packages row.injectionQueries with
    | some fault => rfl
    | none =>
        cases row.firstFault? packages row.localsQueries with
        | some fault => rfl
        | none =>
            show _ = Except.map _ (Row.guarded _ Raised.Group.all _ _)
            rw [Row.guarded_all]
            cases g.compile _ <;> rfl
  rw [hresult]
  refine Explains.bind (explains_readQueries _) fun injections hi => ?_
  refine Explains.bind (explains_readQueries _) fun locals hl => Explains.map ?_ _
  exact Explains.guarded .compile fun e => raises_compile_iff hg hh hi hl

theorem explains_makeHighlight (hrow : find? r.rows row.language = some row)
    (names : Option (List String)) :
    Explains packages r row (Request.steps r row (.highlight names))
      (makeHighlight packages row.language names r).result := by
  have hresult : (makeHighlight packages row.language names r).result =
      heldGrammar packages row.language r row >>= fun g =>
        heldQuery packages row.language r row >>= fun text =>
          restResult packages row.language names row g text := by
    have hpassage := passage_makeHighlight packages row.language names r
    generalize (makeHighlight packages row.language names r).result = result at hpassage
    generalize (makeHighlight packages row.language names r).state = after at hpassage
    cases hpassage with
    | noRow missing => exact absurd (missing.symm.trans hrow) (by simp)
    | noGrammar present fails =>
        obtain rfl := Option.some.inj (hrow.symm.trans present)
        rw [fails]
        rfl
    | noQuery present held fails =>
        obtain rfl := Option.some.inj (hrow.symm.trans present)
        rw [held, fails]
        rfl
    | rest present held read =>
        obtain rfl := Option.some.inj (hrow.symm.trans present)
        rw [held, read]
        rfl
  rw [hresult]
  refine Explains.bind explains_heldGrammar fun g hg => ?_
  refine Explains.bind explains_heldQuery fun text hh => ?_
  exact explains_restResult hg hh names

end Explained

/-- A request for a language with a row fails just if one of its steps raises.  The first that does
decides: its exception is the cause of a fault of the language's grammar if the handler around the
step names its group, and else it is not caught. -/
theorem mismatch_is_reported {r : Registry} {row : Row}
    (hrow : find? r.rows row.language = some row) (packages : Packages) (request : Request)
    (fault : Polyglot.Fault) :
    request.fault? packages row.language r = some fault ↔
      ∃ step e, Stops packages r row (request.steps r row) step e ∧
        if e.group ∈ step.groups then
          ∃ g : Grammar.Fault, fault = .grammar g ∧ g.language = row.language ∧
            g.problem = step.problem row e ∧ g.cause = e
        else fault = .raised e := by
  have hreport : ∀ (step : Step) (e : Raised), fault = step.report row e ↔
      if e.group ∈ step.groups then
        ∃ g : Grammar.Fault, fault = .grammar g ∧ g.language = row.language ∧
          g.problem = step.problem row e ∧ g.cause = e
      else fault = .raised e := by
    intro step e
    rw [Step.report]
    split
    · constructor
      · rintro rfl
        exact ⟨_, rfl, rfl, rfl, step.cause_problem row.language row e⟩
      · rintro ⟨⟨l, problem⟩, rfl, rfl, rfl, -⟩
        rfl
    · exact Iff.rfl
  simp only [← hreport]
  cases request with
  | grammar =>
      rw [Request.fault?, faultOf_eq_some_iff, result_grammar hrow]
      exact explains_heldGrammar fault
  | highlightQuery =>
      rw [Request.fault?, faultOf_eq_some_iff, result_highlightQuery hrow]
      exact explains_heldQuery fault
  | injectionQuery =>
      rw [Request.fault?, faultOf_eq_some_iff, injectionQuery_eq hrow]
      exact explains_readQueries _ fault
  | localsQuery =>
      rw [Request.fault?, faultOf_eq_some_iff, localsQuery_eq hrow]
      exact explains_readQueries _ fault
  | parser =>
      rw [Request.fault?, faultOf_eq_some_iff]
      exact explains_makeParser hrow fault
  | highlight names =>
      rw [Request.fault?, faultOf_eq_some_iff]
      exact explains_makeHighlight hrow names fault

namespace Sample

/-- What a grammar says of a text that it cannot make captures of. -/
def badQuery : Raised := { name := "QueryError", group := .value, text := "Impossible pattern" }

/-- A grammar that makes captures of one text only. -/
def choosy : Grammar :=
  { name := some "choosy",
    compile := fun text => if text = "(a) @type" then .ok ["type"] else .error badQuery }

def undecodable : Raised := { name := "UnicodeDecodeError", group := .value }

/-- What the code of a module can end in when it is imported. -/
def brokenCode : Raised := { name := "ZeroDivisionError", group := .other }

/-- Packages with something missing or broken, and one, the last, with both a query that can be
compiled and one that cannot. -/
def mismatched : Packages :=
  [("bare", { attributes := [("language", .ok (.function (.ok { name := some "bare" })))] }),
   ("flat",
     { attributes :=
         [("language", .ok (.function (.ok { name := some "flat" }))), ("name", .ok .value)],
       holdsFiles := false }),
   ("garbled", { files := [("highlights.scm", .error undecodable)] }),
   ("broken", { importFault := some brokenCode }),
   ("full",
     { attributes := [("language", .ok (.function (.ok choosy)))],
       files := [("highlights.scm", .ok "(a) @type"), ("locals.scm", .ok "(b) @type")] })]

/-- A registry with a row. -/
def having (row : Row) : Registry := run empty [.register row]

end Sample

/-- A text that the grammar refuses is reported as such, and a step before it raises nothing. -/
theorem mismatch_is_reported_refused :
    let row := { Sample.rowFrom "full" with localsQueries := ["locals.scm"] }
    let fault : Grammar.Fault := { language := .rust, problem := .invalidQuery Sample.badQuery }
    find? (Sample.having row).rows .rust = some row ∧
      (Request.highlight none).fault? Sample.mismatched .rust (Sample.having row) =
        some (.grammar fault) ∧
      (Request.highlight none).fault? Sample.mismatched .rust (Sample.having (Sample.rowFrom "full")) =
        none ∧
      ∃ step e, Stops Sample.mismatched (Sample.having row) row
        [.look, .call, .read "highlights.scm", .read "locals.scm", .compile] step e ∧
          fault.cause = e := by
  intro row fault
  have hrow : find? (Sample.having row).rows .rust = some row := by decide +kernel
  have hfault : (Request.highlight none).fault? Sample.mismatched .rust (Sample.having row) =
      some (.grammar fault) := by decide +kernel
  refine ⟨hrow, hfault, by decide +kernel, ?_⟩
  obtain ⟨step, e, hstops, hreport⟩ := (@mismatch_is_reported (Sample.having row) row hrow
    Sample.mismatched (.highlight none) (.grammar fault)).mp hfault
  refine ⟨step, e, hstops, ?_⟩
  split at hreport
  · obtain ⟨g, hg, -, -, hcause⟩ := hreport
    obtain rfl := Polyglot.Fault.grammar.inj hg
    exact hcause
  · cases hreport

/-- Exceptions that no handler names are not reported as faults of the grammar: those of the queries
of a module that holds no files, of a module without a full name, of something that is no function,
of a file name that no file can have, of a file that is no text and of code that is imported. -/
theorem mismatch_escapes :
    Request.highlightQuery.fault? Sample.mismatched .rust (Sample.having (Sample.rowFrom "flat")) =
        some (.raised .badType) ∧
      (Request.highlight none).fault? Sample.mismatched .rust
        (Sample.having (Sample.rowFrom "flat")) = some (.raised .badType) ∧
      Request.grammar.fault? Sample.mismatched .rust (Sample.having (Sample.rowFrom "")) =
        some (.raised .badValue) ∧
      Request.parser.fault? Sample.mismatched .rust (Sample.having (Sample.rowFrom ".bare")) =
        some (.raised .badType) ∧
      Request.grammar.fault? Sample.mismatched .rust
        (Sample.having { Sample.rowFrom "flat" with grammarFunction := "name" }) =
          some (.raised .badType) ∧
      Request.highlightQuery.fault? Sample.mismatched .rust
        (Sample.having { Sample.rowFrom "bare" with highlightQueries := ["\x00"] }) =
          some (.raised .badValue) ∧
      Request.highlightQuery.fault? Sample.mismatched .rust
        (Sample.having (Sample.rowFrom "garbled")) = some (.raised Sample.undecodable) ∧
      Request.grammar.fault? Sample.mismatched .rust (Sample.having (Sample.rowFrom "broken")) =
        some (.raised Sample.brokenCode) := by
  decide +kernel

end Registry
end Polyglot
