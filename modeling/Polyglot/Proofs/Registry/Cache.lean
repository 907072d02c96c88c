/-
What a registry keeps of grammars and queries, and which row it comes from.

A registry loads the grammar of a language once.  A later registration may put another row in the
place of the one that the grammar was loaded for, and the grammar stays.  The row behind an answer
is therefore found in the history: it is the latest row before the first call that asked for the
grammar since the language was last removed (`sourceRow`).  With the packages held fixed, every
answer is the one that this row gives (`answers_from_source_rows`), so a registry that loads anew on
every call would answer alike just where the source row and the present row give the same.

Grammars and queries are kept in the same way.  `Kept` is stated once, for a table, a way to load
from a row and the calls that ask for it.
-/
import Mathlib.Data.List.TakeWhile
import Polyglot.Proofs.Registry.History

namespace Polyglot
namespace Registry

namespace Call

/-- A call that looks at packages looks at the given ones. -/
def uses (packages : Packages) : Call → Prop
  | grammar p _ => p = packages
  | highlightQuery p _ => p = packages
  | _ => True

def asksGrammar (language : Language) : Call → Bool
  | grammar _ l => l == language
  | _ => false

def asksQuery (language : Language) : Call → Bool
  | highlightQuery _ l => l == language
  | _ => false

/-- The row that a call registers for a language. -/
def rowFor? (language : Language) : Call → Option Row
  | register row => if row.language = language then some row else none
  | _ => none

theorem rowFor?_eq_none {call : Call} {language : Language}
    (h : call.registers language = false) : call.rowFor? language = none := by
  cases call with
  | register row => exact if_neg (mt registers_register_iff.mpr (Bool.eq_false_iff.mp h))
  | unregister | addAlias | grammar | highlightQuery => rfl

end Call

/-- The last row that the calls register for a language. -/
def latestRow (language : Language) (calls : List Call) : Option Row :=
  (calls.filterMap (Call.rowFor? language)).getLast?

/-- The calls since the last removal of a language that come before any call that asks. -/
def beforeAsking (asks : Call → Bool) (language : Language) (history : List Call) : List Call :=
  (since language history).takeWhile fun call => !asks call

/-- The row that was in force when it was first asked for since the last removal of the language;
the present row if nobody has asked. -/
def sourceRow (asks : Call → Bool) (language : Language) (history : List Call) : Option Row :=
  latestRow language (beforeAsking asks language history)

/-- What is loaded for a language that has this row, or none. -/
def loadedFor {α : Type} (load : Row → Except Polyglot.Fault α) (language : Language) :
    Option Row → Except Polyglot.Fault α
  | none => .error (.registry (.noRow language))
  | some row => load row

/-! ## One more call -/

theorem latestRow_append (language : Language) (calls more : List Call) :
    latestRow language (calls ++ more) =
      (latestRow language more).or (latestRow language calls) := by
  unfold latestRow
  rw [List.filterMap_append, List.getLast?_append]

theorem latestRow_singleton (language : Language) (call : Call) :
    latestRow language [call] = call.rowFor? language := by
  unfold latestRow
  rw [List.filterMap_cons, List.filterMap_nil]
  cases call.rowFor? language <;> rfl

theorem latestRow_eq_none {language : Language} {calls : List Call}
    (h : ∀ call ∈ calls, call.registers language = false) : latestRow language calls = none := by
  have hnil : calls.filterMap (Call.rowFor? language) = [] :=
    List.filterMap_eq_nil_iff.mpr fun call hcall => Call.rowFor?_eq_none (h call hcall)
  rw [latestRow, hnil, List.getLast?_nil]

/-- Once somebody has asked, later calls do not change who came before. -/
theorem beforeAsking_concat_of_asked {asks : Call → Bool} {language : Language}
    {history : List Call} {call : Call} (hkeep : call.removes language = false)
    (hasked : (since language history).any asks = true) :
    beforeAsking asks language (history ++ [call]) = beforeAsking asks language history := by
  obtain ⟨c, hc, hasks⟩ := List.any_eq_true.mp hasked
  have hstop : ((since language history).takeWhile fun call => !asks call).length ≠
      (since language history).length := by
    intro hlen
    have hall : (since language history).takeWhile (fun call => !asks call) =
        since language history := (List.takeWhile_prefix _).eq_of_length hlen
    have hnot := List.mem_takeWhile_imp (hall.symm ▸ hc)
    simp [hasks] at hnot
  unfold beforeAsking
  rw [since_concat, hkeep, if_neg Bool.false_ne_true, List.takeWhile_append, if_neg hstop]

/-- As long as nobody has asked, all calls since the last removal came before. -/
theorem beforeAsking_of_not_asked {asks : Call → Bool} {language : Language}
    {history : List Call} (h : (since language history).any asks = false) :
    beforeAsking asks language history = since language history := by
  refine List.takeWhile_eq_self_iff.mpr fun call hcall => ?_
  simpa using List.any_eq_false.mp h call hcall

theorem beforeAsking_concat_first {asks : Call → Bool} {language : Language}
    {history : List Call} {call : Call} (hkeep : call.removes language = false)
    (hnot : (since language history).any asks = false) (hasks : asks call = true) :
    beforeAsking asks language (history ++ [call]) = since language history := by
  have hall : ∀ c ∈ since language history, (!asks c) = true := by
    intro c hc
    simpa using List.any_eq_false.mp hnot c hc
  unfold beforeAsking
  rw [since_concat, hkeep, if_neg Bool.false_ne_true, List.takeWhile_append_of_pos hall]
  simp [hasks]

/-- The present row was registered after the first call that asks, or is the source row. -/
theorem latestRow_since_eq_or (asks : Call → Bool) (language : Language) (history : List Call) :
    latestRow language (since language history) =
      (latestRow language ((since language history).dropWhile fun call => !asks call)).or
        (sourceRow asks language history) := by
  rw [sourceRow, beforeAsking, ← latestRow_append, List.takeWhile_append_dropWhile]

/-! ## What is kept has a source -/

/-- A table holds, for each language that was asked for since its last removal, what its source row
gives, and nothing for the others. -/
def Kept {α : Type} (load : Row → Except Polyglot.Fault α) (asks : Language → Call → Bool)
    (kept : Table Language α) (history : List Call) : Prop :=
  ∀ l, match Table.find? kept l with
    | none => (since l history).any (asks l) = false
    | some a => (since l history).any (asks l) = true ∧
        ∃ row, sourceRow (asks l) l history = some row ∧ load row = .ok a

section Kept

variable {α : Type} {load : Row → Except Polyglot.Fault α} {asks : Language → Call → Bool}
  {kept kept' : Table Language α} {history : List Call} {call : Call} {l : Language}

/-- What is kept for one language, where the call does not remove it and changes nothing for it:
the call does not ask, or what it asks for is there. -/
theorem Kept.concat_at (h : Kept load asks kept history)
    (hsame : Table.find? kept' l = Table.find? kept l) (hkeep : call.removes l = false)
    (hasks : asks l call = true → (Table.find? kept l).isSome = true) :
    match Table.find? kept' l with
    | none => (since l (history ++ [call])).any (asks l) = false
    | some a => (since l (history ++ [call])).any (asks l) = true ∧
        ∃ row, sourceRow (asks l) l (history ++ [call]) = some row ∧ load row = .ok a := by
  have hl := h l
  rw [hsame, any_since_concat hkeep]
  cases hfind : Table.find? kept l with
  | none =>
      rw [hfind] at hl hasks
      have hnot : asks l call = false :=
        Bool.eq_false_iff.mpr fun ha => Bool.false_ne_true (hasks ha)
      simp only at hl ⊢
      rw [hl, hnot]
      rfl
  | some a =>
      rw [hfind] at hl
      obtain ⟨hasked, row, hsource, hload⟩ := hl
      refine ⟨by rw [hasked, Bool.true_or], row, ?_, hload⟩
      rw [sourceRow, beforeAsking_concat_of_asked hkeep hasked]
      exact hsource

theorem Kept.concat (h : Kept load asks kept history) (hkeep : ∀ l, call.removes l = false)
    (hasks : ∀ l, asks l call = true → (Table.find? kept l).isSome = true) :
    Kept load asks kept (history ++ [call]) :=
  fun l => h.concat_at rfl (hkeep l) (hasks l)

/-- A removal takes away what is kept for the language. -/
theorem Kept.erase (h : Kept load asks kept history) (language : Language)
    (hasks : ∀ l, asks l (.unregister language) = false) :
    Kept load asks (Table.erase kept language) (history ++ [.unregister language]) := by
  intro l
  by_cases heq : language = l
  · have hgone : Table.find? (Table.erase kept language) l = none := by
      rw [Table.find?_erase, if_pos (beq_iff_eq.mpr heq.symm)]
    rw [hgone]
    exact any_since_removed (Call.removes_unregister_iff.mpr heq) history (asks l)
  · refine h.concat_at ?_ ?_ fun ha => absurd ha (Bool.eq_false_iff.mp (hasks l))
    · rw [Table.find?_erase, if_neg (mt beq_iff_eq.mp (Ne.symm heq))]
    · exact Bool.eq_false_iff.mpr (mt Call.removes_unregister_iff.mp heq)

/-- The first call that asks since the last removal loads from the present row. -/
theorem Kept.insert (h : Kept load asks kept history) {language : Language} {row : Row} {a : α}
    (hrow : latestRow language (since language history) = some row)
    (hnew : Table.find? kept language = none) (hload : load row = .ok a)
    (hkeep : ∀ l, call.removes l = false) (hasks : ∀ l, asks l call = (language == l)) :
    Kept load asks (Table.insert kept language a) (history ++ [call]) := by
  intro l
  by_cases heq : l = language
  · subst heq
    have hask : asks l call = true := by rw [hasks, BEq.rfl]
    have hnot := h l
    rw [hnew] at hnot
    rw [Table.find?_insert_self]
    refine ⟨?_, row, ?_, hload⟩
    · rw [any_since_concat (hkeep l), hask, Bool.or_true]
    · rw [sourceRow, beforeAsking_concat_first (hkeep l) hnot hask]
      exact hrow
  · refine h.concat_at ?_ (hkeep l) fun ha => ?_
    · rw [Table.find?_insert, if_neg (mt beq_iff_eq.mp heq)]
    · rw [hasks, beq_iff_eq] at ha
      exact absurd ha.symm heq

/-- What is kept, or else loaded from the present row, is what the source row gives. -/
theorem Kept.answer (h : Kept load asks kept history) {rows : Table Language Row}
    (hrow : Table.find? rows l = latestRow l (since l history)) :
    (match Table.find? rows l with
      | none => .error (.registry (.noRow l))
      | some row =>
          match Table.find? kept l with
          | some a => .ok a
          | none => load row) =
      loadedFor load l (sourceRow (asks l) l history) := by
  have hl := h l
  cases hfind : Table.find? kept l with
  | none =>
      rw [hfind] at hl
      rw [sourceRow, beforeAsking_of_not_asked hl, ← hrow]
      cases Table.find? rows l <;> rfl
  | some a =>
      rw [hfind] at hl
      obtain ⟨-, row, hsource, hload⟩ := hl
      -- The source row was registered since the last removal, so there is a present row.
      have hpresent : ∃ present, Table.find? rows l = some present := by
        rw [hrow, latestRow_since_eq_or (asks l), hsource]
        cases latestRow l ((since l history).dropWhile fun call => !asks l call) with
        | none => exact ⟨row, rfl⟩
        | some later => exact ⟨later, rfl⟩
      obtain ⟨present, hpresent⟩ := hpresent
      rw [hpresent, hsource]
      exact hload.symm

end Kept

/-- Where no row is registered after the first call that asks, the source row is the present one. -/
theorem sourceRow_eq_latestRow {asks : Call → Bool} {language : Language} {history : List Call}
    (h : ∀ call ∈ (since language history).dropWhile (fun call => !asks call),
      call.registers language = false) :
    sourceRow asks language history = latestRow language (since language history) := by
  rw [latestRow_since_eq_or asks, latestRow_eq_none h, Option.none_or]

/-! ## A registry and its sources -/

/-- The highlight query of a row. -/
def readHighlights (packages : Packages) (row : Row) : Except Polyglot.Fault String :=
  row.readQueries packages row.highlightQueries

/-- Rows are the latest ones, and what is kept comes from its source rows. -/
structure Sourced (packages : Packages) (r : Registry) (history : List Call) : Prop where
  rows : ∀ l, Table.find? r.rows l = latestRow l (since l history)
  grammars : Kept (Row.loadGrammar packages) Call.asksGrammar r.grammars history
  queries : Kept (readHighlights packages) Call.asksQuery r.queries history

theorem sourced_empty (packages : Packages) : Sourced packages empty [] where
  rows _ := rfl
  grammars _ := rfl
  queries _ := rfl

theorem latestRow_since_concat {l : Language} {history : List Call} {call : Call}
    (hkeep : call.removes l = false) :
    latestRow l (since l (history ++ [call])) =
      (call.rowFor? l).or (latestRow l (since l history)) := by
  rw [since_concat, hkeep, if_neg Bool.false_ne_true, latestRow_append, latestRow_singleton]

/-- A call that neither registers nor removes a language leaves its latest row. -/
theorem latestRow_since_same {l : Language} {history : List Call} {call : Call}
    (hkeep : call.removes l = false) (hrow : call.rowFor? l = none) :
    latestRow l (since l (history ++ [call])) = latestRow l (since l history) := by
  rw [latestRow_since_concat hkeep, hrow, Option.none_or]

theorem Sourced.rows_register {packages : Packages} {r : Registry} {history : List Call}
    (h : Sourced packages r history) (row : Row) (l : Language) :
    Table.find? (Table.insert r.rows row.language row) l =
      latestRow l (since l (history ++ [.register row])) := by
  have hkeep : (Call.register row).removes l = false := rfl
  rw [latestRow_since_concat hkeep, ← h.rows l, Table.find?_insert, Call.rowFor?]
  by_cases heq : row.language = l
  · rw [if_pos (beq_iff_eq.mpr heq.symm), if_pos heq]
    rfl
  · rw [if_neg (mt beq_iff_eq.mp (Ne.symm heq)), if_neg heq]
    rfl

theorem Sourced.rows_unregister {packages : Packages} {r : Registry} {history : List Call}
    (h : Sourced packages r history) (language l : Language) :
    Table.find? (Table.erase r.rows language) l =
      latestRow l (since l (history ++ [.unregister language])) := by
  rw [Table.find?_erase]
  by_cases heq : language = l
  · rw [if_pos (beq_iff_eq.mpr heq.symm), since_concat,
      if_pos (Call.removes_unregister_iff.mpr heq)]
    rfl
  · have hkeep : (Call.unregister language).removes l = false :=
      Bool.eq_false_iff.mpr (mt Call.removes_unregister_iff.mp heq)
    rw [if_neg (mt beq_iff_eq.mp (Ne.symm heq)), h.rows l]
    exact (latestRow_since_same hkeep rfl).symm

theorem Sourced.effect {packages : Packages} {r r' : Registry} {history : List Call} {call : Call}
    (h : Sourced packages r history) (huses : call.uses packages) (heff : Effect r call r') :
    Sourced packages r' (history ++ [call]) := by
  cases heff with
  | register row free =>
      refine ⟨h.rows_register row, h.grammars.concat (fun _ => rfl) fun _ ha => ?_,
        h.queries.concat (fun _ => rfl) fun _ ha => ?_⟩
      · cases ha
      · cases ha
  | unregister language present =>
      exact ⟨h.rows_unregister language, h.grammars.erase language fun _ => rfl,
        h.queries.erase language fun _ => rfl⟩
  | addAlias ext language present free =>
      refine ⟨fun l => (h.rows l).trans (latestRow_since_same rfl rfl).symm,
        h.grammars.concat (fun _ => rfl) fun _ ha => ?_,
        h.queries.concat (fun _ => rfl) fun _ ha => ?_⟩
      · cases ha
      · cases ha
  | grammarKept p language present kept =>
      refine ⟨fun l => (h.rows l).trans (latestRow_since_same rfl rfl).symm,
        h.grammars.concat (fun _ => rfl) fun l ha => ?_,
        h.queries.concat (fun _ => rfl) fun _ ha => ?_⟩
      · rw [← show language = l from eq_of_beq ha, kept]
        rfl
      · cases ha
  | grammarLoaded p language present new loads =>
      cases huses
      refine ⟨fun l => (h.rows l).trans (latestRow_since_same rfl rfl).symm,
        h.grammars.insert ?_ new loads (fun _ => rfl) fun _ => rfl,
        h.queries.concat (fun _ => rfl) fun _ ha => ?_⟩
      · rw [← h.rows]
        exact present
      · cases ha
  | queryKept p language present kept =>
      refine ⟨fun l => (h.rows l).trans (latestRow_since_same rfl rfl).symm,
        h.grammars.concat (fun _ => rfl) fun _ ha => ?_,
        h.queries.concat (fun _ => rfl) fun l ha => ?_⟩
      · cases ha
      · rw [← show language = l from eq_of_beq ha, kept]
        rfl
  | queryRead p language present new reads =>
      cases huses
      refine ⟨fun l => (h.rows l).trans (latestRow_since_same rfl rfl).symm,
        h.grammars.concat (fun _ => rfl) fun _ ha => ?_,
        h.queries.insert ?_ new reads (fun _ => rfl) fun _ => rfl⟩
      · cases ha
      · rw [← h.rows]
        exact present

theorem Sourced.run {packages : Packages} {r : Registry} {history calls : List Call}
    (h : Sourced packages r history) (huses : ∀ call ∈ calls, call.uses packages) :
    Sourced packages (run r calls) (history ++ accepted r calls) := by
  induction calls generalizing r history with
  | nil =>
      rw [accepted, List.append_nil]
      exact h
  | cons call rest ih =>
      obtain ⟨hcall, hrest⟩ := List.forall_mem_cons.mp huses
      show Sourced packages (Registry.run (call.after r) rest) _
      rw [accepted]
      rcases call.after_cases r with ⟨hno, hsame⟩ | ⟨hyes, heff⟩
      · rw [hno, if_neg Bool.false_ne_true, hsame]
        exact ih h hrest
      · rw [if_pos hyes, List.append_cons]
        exact ih (h.effect hcall heff) hrest

theorem Sourced.grammar_result {packages : Packages} {r : Registry} {history : List Call}
    (h : Sourced packages r history) (l : Language) :
    (grammar packages l r).result =
      loadedFor (Row.loadGrammar packages) l (sourceRow (Call.asksGrammar l) l history) := by
  rw [← h.grammars.answer (h.rows l), grammar_eq]
  cases Table.find? r.rows l with
  | none => rfl
  | some row =>
      cases Table.find? r.grammars l with
      | some g => rfl
      | none =>
          simp only
          cases row.loadGrammar packages <;> rfl

theorem Sourced.highlightQuery_result {packages : Packages} {r : Registry} {history : List Call}
    (h : Sourced packages r history) (l : Language) :
    (highlightQuery packages l r).result =
      loadedFor (readHighlights packages) l (sourceRow (Call.asksQuery l) l history) := by
  rw [← h.queries.answer (h.rows l), highlightQuery_eq]
  cases Table.find? r.rows l with
  | none => rfl
  | some row =>
      cases Table.find? r.queries l with
      | some text => rfl
      | none =>
          simp only [readHighlights]
          cases row.readQueries packages row.highlightQueries <;> rfl

/-- With the packages held fixed, a registry answers every question after every run from the source
row of the answer.  The present row is the latest one, and where no row has been registered since
the question was first asked, the registry answers as one that loads anew on every call. -/
theorem answers_from_source_rows {packages : Packages} {calls : List Call}
    (huses : ∀ call ∈ calls, call.uses packages) (l : Language) :
    let r := run empty calls
    let recent := since l (accepted empty calls)
    let present := Table.find? r.rows l
    present = latestRow l recent ∧
    (grammar packages l r).result = loadedFor (Row.loadGrammar packages) l
      (sourceRow (Call.asksGrammar l) l (accepted empty calls)) ∧
    (highlightQuery packages l r).result = loadedFor (readHighlights packages) l
      (sourceRow (Call.asksQuery l) l (accepted empty calls)) ∧
    ((∀ call ∈ recent.dropWhile (fun call => !call.asksGrammar l), call.registers l = false) →
      (grammar packages l r).result = loadedFor (Row.loadGrammar packages) l present) ∧
    ((∀ call ∈ recent.dropWhile (fun call => !call.asksQuery l), call.registers l = false) →
      (highlightQuery packages l r).result = loadedFor (readHighlights packages) l present) := by
  intro r recent present
  have hsourced : Sourced packages r (accepted empty calls) := (sourced_empty packages).run huses
  have hpresent : present = latestRow l recent := hsourced.rows l
  have hgrammar := hsourced.grammar_result l
  have hquery := hsourced.highlightQuery_result l
  refine ⟨hpresent, hgrammar, hquery, fun hlast => ?_, fun hlast => ?_⟩
  · rw [hgrammar, sourceRow_eq_latestRow hlast, hpresent]
  · rw [hquery, sourceRow_eq_latestRow hlast, hpresent]

namespace Sample

/-- Two packages, each with a grammar and a query of its own. -/
def packages : Packages :=
  [("old", { attributes := [("language", .ok (.function (.ok { name := some "old" })))],
             files := [("highlights.scm", .ok "(old)")] }),
   ("new", { attributes := [("language", .ok (.function (.ok { name := some "new" })))],
             files := [("highlights.scm", .ok "(new)")] })]

/-- A row for one language, with the grammar of a package. -/
def rowFrom (package : String) : Row :=
  { language := .rust, name := "Rust", extensions := ["rs"], grammarModule := package }

/-- The grammar and the query of the old package are asked for, then the language gets a row that
names the new one. -/
def renewed : List Call :=
  [.register (rowFrom "old"), .grammar packages .rust, .highlightQuery packages .rust,
   .register (rowFrom "new")]

/-- The same, with a removal before the new row. -/
def replaced : List Call :=
  [.register (rowFrom "old"), .grammar packages .rust, .highlightQuery packages .rust,
   .unregister .rust, .register (rowFrom "new"), .grammar packages .rust]

end Sample

/-- After a removal nothing of the old row is left. -/
theorem answers_from_source_rows_replaced :
    Table.find? (run empty Sample.replaced).rows .rust = some (Sample.rowFrom "new") ∧
    (grammar Sample.packages .rust (run empty Sample.replaced)).result =
      (Sample.rowFrom "new").loadGrammar Sample.packages ∧
    (highlightQuery Sample.packages .rust (run empty Sample.replaced)).result =
      readHighlights Sample.packages (Sample.rowFrom "new") := by
  have huses : ∀ call ∈ Sample.replaced, call.uses Sample.packages := by
    simp [Sample.replaced, Call.uses]
  have hpresent : Table.find? (run empty Sample.replaced).rows .rust =
      some (Sample.rowFrom "new") := by decide +kernel
  obtain ⟨-, -, -, hgrammar, hquery⟩ := answers_from_source_rows huses .rust
  rw [hpresent] at hgrammar hquery
  exact ⟨hpresent, hgrammar (by decide +kernel), hquery (by decide +kernel)⟩

/-- A row that is registered over another leaves the registry with the old grammar and the old
query, although its own can be had. -/
theorem stale_after_new_row :
    Table.find? (run empty Sample.renewed).rows .rust = some (Sample.rowFrom "new") ∧
    (grammar Sample.packages .rust (run empty Sample.renewed)).result =
      .ok { name := some "old" } ∧
    (Sample.rowFrom "new").loadGrammar Sample.packages = .ok { name := some "new" } ∧
    (highlightQuery Sample.packages .rust (run empty Sample.renewed)).result = .ok "(old)" ∧
    readHighlights Sample.packages (Sample.rowFrom "new") = .ok "(new)" := by
  exact ⟨by decide +kernel, rfl, rfl, rfl, by decide +kernel⟩

end Registry
end Polyglot
