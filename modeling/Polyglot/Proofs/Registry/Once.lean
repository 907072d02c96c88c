/-
Grammars and highlight queries are loaded once.

What a registry has been asked for it keeps, and until the language is registered or removed again it
gives the same answer, whatever becomes of the packages.  A request that fails leaves nothing behind,
and a removal takes all away: the next request turns to the packages as they are then, and those
decide (`Asset.LoadsAfresh`).

What the packages have to hold is said without the functions that load it (`Row.OffersGrammar`,
`Row.OffersText`), and what is true of grammars and of queries alike is said once, of an `Asset`.
-/
import Polyglot.Proofs.Registry.Cache
import Polyglot.Proofs.Registry.Operation
import Polyglot.Proofs.Registry.Packages

namespace Polyglot

open Table (find?)

namespace Registry

/-! ## Grammars and queries alike -/

/-- What a registry keeps for a language once it has been asked for it. -/
inductive Asset where
  | grammar
  | highlights
deriving DecidableEq, Repr

namespace Asset

def ask : Asset → Packages → Language → Call
  | grammar => .grammar
  | highlights => .highlightQuery

def isAskedBy (language : Language) (call : Call) : Asset → Bool
  | grammar => call.asksGrammar language
  | highlights => call.asksQuery language

/-- What the registry has kept for a language. -/
def kept? (r : Registry) (language : Language) : Asset → Option Reply
  | grammar => (find? r.grammars language).map .grammar
  | highlights => (find? r.queries language).map .query

def load (packages : Packages) (row : Row) : Asset → Except Polyglot.Fault Reply
  | grammar => (row.loadGrammar packages).map .grammar
  | highlights => (readHighlights packages row).map .query

/-- The packages hold what a row names. -/
def IsOffered (packages : Packages) (row : Row) : Asset → Reply → Prop
  | grammar, .grammar g => row.OffersGrammar packages g
  | highlights, .query text => row.OffersText packages row.highlightQueries text
  | _, _ => False

/-- What is said when something is loaded. -/
def notices (row : Row) : Asset → List Notice
  | grammar => [.grammarLoaded row.name row.grammarModule]
  | highlights => []

/-- A request turns to the packages with the row in force.  It succeeds just if they hold what the
row names, and then says that this was loaded. -/
structure LoadsAfresh (asset : Asset) (l : Language) (r : Registry) : Prop where
  result : ∀ packages reply, ((asset.ask packages l).perform r).result = .ok reply ↔
    ∃ row, find? r.rows l = some row ∧ asset.IsOffered packages row reply
  announced : ∀ packages row reply, find? r.rows l = some row → asset.IsOffered packages row reply →
    ((asset.ask packages l).perform r).notices = asset.notices row

section Ask

variable {asset : Asset} {packages : Packages} {l : Language} {r : Registry} {row : Row}
  {reply : Reply}

theorem load_eq_ok_iff : asset.load packages row = .ok reply ↔ asset.IsOffered packages row reply := by
  cases asset with
  | grammar =>
      rw [load]
      cases reply with
      | grammar g =>
          rw [IsOffered, ← Row.loadGrammar_eq_ok_iff]
          cases row.loadGrammar packages <;> simp [Except.map]
      | done | removed _ | query _ =>
          cases row.loadGrammar packages <;> simp [Except.map, IsOffered]
  | highlights =>
      rw [load]
      cases reply with
      | query text =>
          rw [IsOffered, ← Row.readQueries_eq_ok_iff, ← readHighlights]
          cases readHighlights packages row <;> simp [Except.map]
      | done | removed _ | grammar _ =>
          cases readHighlights packages row <;> simp [Except.map, IsOffered]

theorem perform_of_noRow (asset : Asset) (packages : Packages) (hrow : find? r.rows l = none) :
    (asset.ask packages l).perform r =
      { result := .error (.registry (.noRow l)), state := r, notices := [] } := by
  cases asset with
  | grammar =>
      rw [ask, Call.perform_grammar, grammar_eq, hrow]
      rfl
  | highlights =>
      rw [ask, Call.perform_highlightQuery, highlightQuery_eq, hrow]
      rfl

theorem perform_of_kept (packages : Packages) (hrow : find? r.rows l = some row)
    (hkept : asset.kept? r l = some reply) :
    (asset.ask packages l).perform r = { result := .ok reply, state := r, notices := [] } := by
  cases asset with
  | grammar =>
      obtain ⟨g, hfind, rfl⟩ := Option.map_eq_some_iff.mp hkept
      rw [ask, Call.perform_grammar, grammar_eq, hrow]
      simp only [hfind]
      rfl
  | highlights =>
      obtain ⟨text, hfind, rfl⟩ := Option.map_eq_some_iff.mp hkept
      rw [ask, Call.perform_highlightQuery, highlightQuery_eq, hrow]
      simp only [hfind]
      rfl

/-- Where nothing is kept, a request comes to what can be loaded, and that is kept from then on. -/
theorem perform_of_missing (packages : Packages) (hrow : find? r.rows l = some row)
    (hkept : asset.kept? r l = none) :
    ((asset.ask packages l).perform r).result = asset.load packages row ∧
      ∀ reply, asset.load packages row = .ok reply →
        ((asset.ask packages l).perform r).notices = asset.notices row ∧
        asset.kept? ((asset.ask packages l).after r) l = some reply := by
  cases asset with
  | grammar =>
      rw [kept?, Option.map_eq_none_iff] at hkept
      rw [ask, Call.after, Call.perform_grammar, grammar_eq, hrow, load]
      simp only [hkept]
      cases row.loadGrammar packages with
      | error fault =>
          refine ⟨rfl, fun reply h => ?_⟩
          cases h
      | ok g =>
          refine ⟨rfl, fun reply h => ⟨rfl, ?_⟩⟩
          rw [← Except.ok.inj h, kept?, Table.find?_insert_self]
          rfl
  | highlights =>
      rw [kept?, Option.map_eq_none_iff] at hkept
      rw [ask, Call.after, Call.perform_highlightQuery, highlightQuery_eq, hrow, load, readHighlights]
      simp only [hkept]
      cases row.readQueries packages row.highlightQueries with
      | error fault =>
          refine ⟨rfl, fun reply h => ?_⟩
          cases h
      | ok text =>
          refine ⟨rfl, fun reply h => ⟨rfl, ?_⟩⟩
          rw [← Except.ok.inj h, kept?, Table.find?_insert_self]
          rfl

theorem loadsAfresh_of_missing (hkept : asset.kept? r l = none) : asset.LoadsAfresh l r where
  result packages reply := by
    cases hrow : find? r.rows l with
    | none => simp [perform_of_noRow asset packages hrow]
    | some row =>
        rw [(perform_of_missing packages hrow hkept).1, load_eq_ok_iff]
        simp
  announced packages row reply hrow hoffered :=
    ((perform_of_missing packages hrow hkept).2 reply (load_eq_ok_iff.mpr hoffered)).1

/-- What a request answers with is kept. -/
theorem kept?_after_ask (h : ((asset.ask packages l).perform r).result = .ok reply) :
    asset.kept? ((asset.ask packages l).after r) l = some reply := by
  cases hrow : find? r.rows l with
  | none =>
      rw [perform_of_noRow asset packages hrow] at h
      cases h
  | some row =>
      cases hkept : asset.kept? r l with
      | some found =>
          rw [Call.after, perform_of_kept packages hrow hkept]
          rw [perform_of_kept packages hrow hkept] at h
          rw [← Except.ok.inj h]
          exact hkept
      | none =>
          obtain ⟨hresult, hloaded⟩ := perform_of_missing packages hrow hkept
          rw [hresult] at h
          exact (hloaded reply h).2

end Ask

/-! ## From call to call -/

section Step

variable {asset : Asset} {l : Language} {r r' : Registry} {call : Call} {reply : Reply}

theorem kept?_without (asset : Asset) (r : Registry) (language l : Language) :
    asset.kept? (r.without language) l = if l == language then none else asset.kept? r l := by
  cases asset with
  | grammar =>
      rw [kept?, kept?, without, Table.find?_erase]
      cases l == language <;> rfl
  | highlights =>
      rw [kept?, kept?, without, Table.find?_erase]
      cases l == language <;> rfl

/-- What is kept for a language goes when the language is removed, comes when it is first asked for,
and stays otherwise. -/
theorem kept?_cases (asset : Asset) (l : Language) (heff : Effect r call r') :
    (call.removes l = true ∧ asset.kept? r' l = none) ∨
      (asset.isAskedBy l call = true ∧ asset.kept? r l = none) ∨
      asset.kept? r' l = asset.kept? r l := by
  cases heff with
  | register | addAlias | grammarKept | queryKept => cases asset <;> exact .inr (.inr rfl)
  | unregister language present =>
      have hkept := asset.kept?_without r language l
      by_cases heq : (l == language) = true
      · rw [if_pos heq] at hkept
        exact .inl ⟨BEq.comm.trans heq, hkept⟩
      · rw [if_neg heq] at hkept
        exact .inr (.inr hkept)
  | grammarLoaded packages language present new loads =>
      cases asset with
      | highlights => exact .inr (.inr rfl)
      | grammar =>
          by_cases heq : (l == language) = true
          · refine .inr (.inl ⟨BEq.comm.trans heq, ?_⟩)
            rw [kept?, eq_of_beq heq, new]
            rfl
          · rw [kept?, kept?, Table.find?_insert, if_neg heq]
            exact .inr (.inr rfl)
  | queryRead packages language present new reads =>
      cases asset with
      | grammar => exact .inr (.inr rfl)
      | highlights =>
          by_cases heq : (l == language) = true
          · refine .inr (.inl ⟨BEq.comm.trans heq, ?_⟩)
            rw [kept?, eq_of_beq heq, new]
            rfl
          · rw [kept?, kept?, Table.find?_insert, if_neg heq]
            exact .inr (.inr rfl)

/-- What is kept stays through every run that does not remove the language. -/
theorem kept?_run {calls : List Call} (hkeep : ∀ call ∈ accepted r calls, call.removes l = false)
    (hkept : asset.kept? r l = some reply) : asset.kept? (run r calls) l = some reply := by
  refine run_of_accepted (P := fun r => asset.kept? r l = some reply) ?_ hkeep hkept
  intro r r' call heff hcall hkept
  obtain ⟨hremoves, -⟩ | ⟨-, hnone⟩ | hsame := asset.kept?_cases l heff
  · rw [hcall] at hremoves
    cases hremoves
  · rw [hkept] at hnone
    cases hnone
  · rw [hsame]
    exact hkept

/-- Nothing is kept as long as nobody asks with success. -/
theorem kept?_run_none {calls : List Call}
    (hasks : ∀ call ∈ accepted r calls, asset.isAskedBy l call = false)
    (hkept : asset.kept? r l = none) : asset.kept? (run r calls) l = none := by
  refine run_of_accepted (P := fun r => asset.kept? r l = none) ?_ hasks hkept
  intro r r' call heff hcall hkept
  obtain ⟨-, hnone⟩ | ⟨hasked, -⟩ | hsame := asset.kept?_cases l heff
  · exact hnone
  · rw [hcall] at hasked
    cases hasked
  · rw [hsame]
    exact hkept

/-! ## What is kept in a coherent registry -/

theorem contains_of_kept? (h : Coherent r) (hkept : asset.kept? r l = some reply) :
    r.contains l = true := by
  cases asset with
  | grammar =>
      obtain ⟨g, hfind, -⟩ := Option.map_eq_some_iff.mp hkept
      exact h.grammars l g hfind
  | highlights =>
      obtain ⟨text, hfind, -⟩ := Option.map_eq_some_iff.mp hkept
      exact h.queries l text hfind

/-- A request that fails finds nothing kept. -/
theorem kept?_of_error (h : Coherent r) {packages : Packages} {fault : Polyglot.Fault}
    (hfails : ((asset.ask packages l).perform r).result = .error fault) :
    asset.kept? r l = none := by
  cases hkept : asset.kept? r l with
  | none => rfl
  | some reply =>
      obtain ⟨row, hrow⟩ := find?_of_contains (contains_of_kept? h hkept)
      rw [perform_of_kept packages hrow hkept] at hfails
      cases hfails

/-- After a removal nothing is kept, also where there was nothing to remove. -/
theorem kept?_after_unregister (h : Coherent r) (asset : Asset) (l : Language) :
    asset.kept? ((Call.unregister l).after r) l = none := by
  rw [Call.after, Call.perform_unregister]
  by_cases hpresent : r.contains l = true
  · rw [unregister_eq, if_pos hpresent]
    dsimp only
    rw [kept?_without, BEq.rfl, if_pos rfl]
  · rw [unregister_eq, if_neg hpresent]
    dsimp only
    cases hkept : asset.kept? r l with
    | none => rfl
    | some reply => exact absurd (contains_of_kept? h hkept) hpresent

end Step

end Asset

/-! ## The row in force -/

/-- The row of a language stays in force until the language is registered or removed. -/
theorem find?_rows_run {r : Registry} {l : Language} {calls : List Call}
    (h : ∀ call ∈ accepted r calls, call.registers l = false ∧ call.removes l = false) :
    find? (run r calls).rows l = find? r.rows l := by
  refine run_of_accepted (P := fun r' => find? r'.rows l = find? r.rows l) ?_ h rfl
  intro r₁ r₂ call heff hcall hsame
  rw [← hsame]
  cases heff with
  | register row free =>
      have hne : ¬ (l == row.language) = true := by
        rw [BEq.comm]
        exact Bool.eq_false_iff.mp hcall.1
      rw [Table.find?_insert, if_neg hne]
  | unregister language present =>
      have hne : ¬ (l == language) = true := by
        rw [BEq.comm]
        exact Bool.eq_false_iff.mp hcall.2
      rw [Table.find?_erase, if_neg hne]
  | addAlias | grammarKept | grammarLoaded | queryKept | queryRead => rfl

theorem find?_rows_after_register {r : Registry} {row : Row}
    (h : (Call.register row).succeeds r = true) :
    find? ((Call.register row).after r).rows row.language = some row := by
  obtain ⟨hno, -⟩ | ⟨-, heff⟩ := (Call.register row).after_cases r
  · rw [h] at hno
    cases hno
  · generalize hr' : (Call.register row).after r = r' at heff
    cases heff with
    | register _ free => exact Table.find?_insert_self _ _ _

/-! ## Runs of operations -/

/-- The calls that succeed in a run of operations. -/
def effective (r : Registry) (ops : List Operation) : List Call :=
  accepted r (ops.filterMap Operation.call?)

theorem Coherent.operate {r : Registry} (h : Coherent r) (ops : List Operation) :
    Coherent (operate r ops) := by
  rw [operate_eq_run]
  exact h.run _

/-- An answer stays the same, with nothing loaded, as long as the language is neither registered nor
removed.  After a request that failed, and after the language was removed and has a new row, the next
request loads afresh. -/
theorem loads_once (ops : List Operation) (asset : Asset) (l : Language) :
    let r := operate empty ops
    (∀ packages reply, ((asset.ask packages l).perform r).result = .ok reply →
      ∀ later, (∀ call ∈ effective ((asset.ask packages l).after r) later,
          call.registers l = false ∧ call.removes l = false) →
        let r' := operate ((asset.ask packages l).after r) later
        ∀ packages', (asset.ask packages' l).perform r' =
          { result := .ok reply, state := r', notices := [] }) ∧
    (∀ packages fault, ((asset.ask packages l).perform r).result = .error fault →
      (asset.ask packages l).after r = r ∧
      ∀ later, (∀ call ∈ effective r later, asset.isAskedBy l call = false) →
        asset.LoadsAfresh l (operate r later)) ∧
    (∀ between row later,
      let r₁ := operate ((Call.unregister l).after r) between
      let r₂ := (Call.register row).after r₁
      row.language = l → (Call.register row).succeeds r₁ = true →
      (∀ call ∈ effective ((Call.unregister l).after r) between, asset.isAskedBy l call = false) →
      (∀ call ∈ effective r₂ later, (call.registers l = false ∧ call.removes l = false) ∧
        asset.isAskedBy l call = false) →
      find? (operate r₂ later).rows l = some row ∧ asset.LoadsAfresh l (operate r₂ later)) := by
  intro r
  have hcoherent : Coherent r := coherent_empty.operate ops
  refine ⟨?_, ?_, ?_⟩
  · intro packages reply hreply later hlater r' packages'
    have hkept : asset.kept? r' l = some reply := by
      show asset.kept? (operate _ later) l = some reply
      rw [operate_eq_run]
      exact Asset.kept?_run (fun call hcall => (hlater call hcall).2) (Asset.kept?_after_ask hreply)
    have hafter : Coherent r' := (hcoherent.run [asset.ask packages l]).operate later
    obtain ⟨row, hrow⟩ := find?_of_contains (Asset.contains_of_kept? hafter hkept)
    exact Asset.perform_of_kept packages' hrow hkept
  · intro packages fault hfails
    have hkept : asset.kept? r l = none := Asset.kept?_of_error hcoherent hfails
    refine ⟨?_, fun later hlater => Asset.loadsAfresh_of_missing ?_⟩
    · refine (Operation.after_call _ r).symm.trans (Operation.after_of_isRefused ?_)
      rw [Operation.isRefused, Operation.perform_call, hfails]
      rfl
    · rw [operate_eq_run]
      exact Asset.kept?_run_none hlater hkept
  · rintro between row later r₁ r₂ rfl hsucceeds hbetween hlater
    have hremoved : asset.kept? r₁ row.language = none := by
      show asset.kept? (operate _ between) row.language = none
      rw [operate_eq_run]
      exact Asset.kept?_run_none hbetween (Asset.kept?_after_unregister hcoherent asset _)
    -- The new row does not bring anything back.
    have hregistered : asset.kept? r₂ row.language = none := by
      have hasks : ∀ call ∈ accepted r₁ [.register row],
          asset.isAskedBy row.language call = false := by
        intro call hcall
        rw [accepted, if_pos hsucceeds, accepted, List.mem_singleton] at hcall
        rw [hcall]
        cases asset <;> rfl
      exact Asset.kept?_run_none hasks hremoved
    rw [operate_eq_run]
    constructor
    · rw [find?_rows_run fun call hcall => (hlater call hcall).1]
      exact find?_rows_after_register hsucceeds
    · refine Asset.loadsAfresh_of_missing (Asset.kept?_run_none ?_ hregistered)
      exact fun call hcall => (hlater call hcall).2

namespace Sample

/-- A row without query files: its highlight query is the empty text. -/
def bare : Row := { rowFrom "old" with highlightQueries := [] }

end Sample

/-- An empty query stays empty; a grammar that could not be had is had when its package is there;
after a removal it is that of the new row. -/
theorem loads_once_sample :
    let r := operate empty [.call (.register Sample.bare), .call (.register Row.go)]
    let kept := operate ((Call.highlightQuery [] .rust).after r)
      [.call (.unregister .go), .injectionQuery Sample.packages .rust]
    let failed := operate r [.call (.grammar [] .rust), .lineLists .rust]
    let renewed := operate ((Call.register (Sample.rowFrom "new")).after
      (operate ((Call.unregister .rust).after r) [.call (.grammar Sample.packages .rust)])) []
    (Call.highlightQuery Sample.packages .rust).perform kept =
      { result := .ok (.query ""), state := kept, notices := [] } ∧
    ((Call.grammar Sample.packages .rust).perform failed).result =
      .ok (.grammar { name := some "old" }) ∧
    ((Call.grammar Sample.packages .rust).perform renewed).result =
      .ok (.grammar { name := some "new" }) := by
  intro r kept failed renewed
  have hquery : ((Asset.highlights.ask [] .rust).perform r).result = .ok (.query "") := rfl
  obtain ⟨fault, hmissing⟩ :
      ∃ fault, ((Asset.grammar.ask [] .rust).perform r).result = .error fault := ⟨_, rfl⟩
  have hold : Sample.bare.OffersGrammar Sample.packages { name := some "old" } :=
    Row.loadGrammar_eq_ok_iff.mp rfl
  have hnew : (Sample.rowFrom "new").OffersGrammar Sample.packages { name := some "new" } :=
    Row.loadGrammar_eq_ok_iff.mp rfl
  obtain ⟨hsame, -, -⟩ := loads_once _ .highlights .rust
  obtain ⟨-, hafresh, hrenewed⟩ := loads_once _ .grammar .rust
  refine ⟨hsame [] _ hquery _ (by decide +kernel) Sample.packages, ?_, ?_⟩
  · obtain ⟨-, hload⟩ := hafresh [] fault hmissing
    exact ((hload _ (by decide +kernel)).result _ _).mpr ⟨Sample.bare, by decide +kernel, hold⟩
  · obtain ⟨hrow, hload⟩ := hrenewed [.call (.grammar Sample.packages .rust)]
      (Sample.rowFrom "new") [] rfl (by decide +kernel) (by decide +kernel) (by decide +kernel)
    exact (hload.result _ _).mpr ⟨_, hrow, hnew⟩

end Registry
end Polyglot
