/-
A removal undoes a registration.

`without` is what is left of a registry when a language is taken out of it.  Calls on that language
change nothing else: a new row, an alias, a grammar or a query would be taken out along with it
(`without_effect`).  A registry in which the language has no row holds nothing of it at all, so after
any run of such calls a removal leads back to where the run began, with rows, routes, grammars and
queries in the order in which they stood.
-/
import Polyglot.Proofs.Registry.Cache

namespace Polyglot
namespace Registry

open Table (find?)

namespace Call

/-- A call that adds to a language or asks about it. -/
def isOn (language : Language) : Call → Bool
  | register row => row.language == language
  | unregister _ => false
  | addAlias _ l => l == language
  | grammar _ l => l == language
  | highlightQuery _ l => l == language

end Call

/-! ## What is left without a language -/

section Routes

variable {routes : Table String Language} {l : Language}

/-- One more extension of the language is taken out with it. -/
theorem filter_insert {e : String}
    (free : ∀ owner, find? routes e = some owner → owner = l) :
    ((Table.insert routes e l).filter fun entry => entry.2 ≠ l) =
      routes.filter fun entry => entry.2 ≠ l := by
  induction routes with
  | nil => simp [Table.insert]
  | cons entry rest ih =>
      obtain ⟨key, owner⟩ := entry
      rw [Table.insert]
      by_cases hkey : (key == e) = true
      · have howner : owner = l := by
          refine free owner ?_
          rw [Table.find?_cons, BEq.comm, if_pos hkey]
        rw [if_pos hkey, howner]
      · have hrest : ∀ owner, find? rest e = some owner → owner = l := by
          intro owner' hfind
          refine free owner' ?_
          rw [Table.find?_cons, BEq.comm, if_neg hkey]
          exact hfind
        rw [if_neg hkey, List.filter_cons, List.filter_cons, ih hrest]

theorem filter_route {extensions : List String}
    (free : ∀ ext ∈ extensions, ∀ owner,
      find? routes (Text.dropDot ext) = some owner → owner = l) :
    ((route routes extensions l).filter fun entry => entry.2 ≠ l) =
      routes.filter fun entry => entry.2 ≠ l := by
  induction extensions generalizing routes with
  | nil => rfl
  | cons ext rest ih =>
      obtain ⟨hext, hrest⟩ := List.forall_mem_cons.mp free
      show ((route (Table.insert routes (Text.dropDot ext) l) rest l).filter _) = _
      -- The extensions that follow are free still: the first one went to the language itself.
      have hstill : ∀ e ∈ rest, ∀ owner,
          find? (Table.insert routes (Text.dropDot ext) l) (Text.dropDot e) = some owner →
            owner = l := by
        intro e he owner hfind
        rw [Table.find?_insert] at hfind
        by_cases hsame : (Text.dropDot e == Text.dropDot ext) = true
        · rw [if_pos hsame] at hfind
          exact (Option.some.inj hfind).symm
        · rw [if_neg hsame] at hfind
          exact hrest e he owner hfind
      rw [ih hstill, filter_insert hext]

end Routes

section Without

variable {r r' : Registry} {l : Language} {call : Call}

/-- What is kept for languages with a row only is not kept for one that has none. -/
theorem erase_of_absent {α : Type} {kept : Table Language α}
    (h : ∀ language a, find? kept language = some a → r.contains language = true)
    (habsent : r.contains l = false) : Table.erase kept l = kept := by
  rw [Table.erase_eq_self_iff, Table.contains_eq_false_iff, Option.eq_none_iff_forall_ne_some]
  intro a hfind
  rw [h l a hfind] at habsent
  cases habsent

/-- A registry without a row for a language holds nothing else of it. -/
theorem Coherent.without_eq_self (h : Coherent r) (habsent : r.contains l = false) :
    r.without l = r := by
  have hrows : Table.erase r.rows l = r.rows := Table.erase_eq_self_iff.mpr habsent
  have hroutes : (r.routes.filter fun e => e.2 ≠ l) = r.routes := by
    refine List.filter_eq_self.mpr fun e he => decide_eq_true ?_
    intro howner
    have hfind : find? r.routes e.1 = some l := Table.find?_of_mem h.distinct (howner ▸ he)
    rw [h.routed e.1 l hfind] at habsent
    cases habsent
  rw [without, hrows, hroutes, erase_of_absent h.grammars habsent,
    erase_of_absent h.queries habsent]

/-- What a call does on a language is taken out with the language. -/
theorem without_effect (heff : Effect r call r') (hon : call.isOn l = true) :
    r'.without l = r.without l := by
  cases heff with
  | register row free =>
      obtain rfl : row.language = l := eq_of_beq hon
      rw [without, without, Table.erase_insert_self, filter_route free]
  | unregister language present => cases hon
  | addAlias ext language present free =>
      obtain rfl : language = l := eq_of_beq hon
      rw [without, without, filter_insert free]
  | grammarKept | queryKept => rfl
  | grammarLoaded packages language present new loads =>
      obtain rfl : language = l := eq_of_beq hon
      rw [without, without, Table.erase_insert_self]
  | queryRead packages language present new reads =>
      obtain rfl : language = l := eq_of_beq hon
      rw [without, without, Table.erase_insert_self]

theorem contains_effect (heff : Effect r call r') (hon : call.isOn l = true)
    (hpresent : r.contains l = true) : r'.contains l = true := by
  cases heff with
  | register row free => exact contains_insert_row r row l hpresent
  | unregister language present => cases hon
  | addAlias | grammarKept | grammarLoaded | queryKept | queryRead => exact hpresent

theorem accepted_subset (r : Registry) (calls : List Call) : accepted r calls ⊆ calls := by
  induction calls generalizing r with
  | nil => exact List.Subset.refl _
  | cons call rest ih =>
      rw [accepted]
      by_cases hsucceeds : call.succeeds r = true
      · rw [if_pos hsucceeds]
        exact List.cons_subset_cons call (ih _)
      · rw [if_neg hsucceeds]
        exact List.subset_cons_of_subset call (ih _)

/-- Calls on a language that has a row leave it a row, and leave the rest as it was. -/
theorem without_run {calls : List Call} (hon : ∀ call ∈ calls, call.isOn l = true)
    (hpresent : r.contains l = true) :
    (run r calls).contains l = true ∧ (run r calls).without l = r.without l := by
  refine run_of_accepted (P := fun r' => r'.contains l = true ∧ r'.without l = r.without l)
    (Q := fun call => call.isOn l = true) ?_
    (fun call hcall => hon call (accepted_subset r calls hcall)) ⟨hpresent, rfl⟩
  intro r₁ r₂ call heff hcall ⟨hhas, hrest⟩
  exact ⟨contains_effect heff hcall hhas, (without_effect heff hcall).trans hrest⟩

end Without

/-- Where a language has no row, registering it, calling on it in any way and removing it leads back
to the same registry. -/
theorem unregister_restores {calls later : List Call} {row : Row}
    (habsent : (run empty calls).contains row.language = false)
    (hregister : (Call.register row).succeeds (run empty calls) = true)
    (hlater : ∀ call ∈ later, call.isOn row.language = true) :
    (Call.unregister row.language).perform (run (run empty calls) (.register row :: later)) =
      { result := .ok (.removed true), state := run empty calls, notices := [] } := by
  generalize hr : run empty calls = r at habsent hregister ⊢
  have hcoherent : Coherent r := hr ▸ coherent_run calls
  have hregistered : ((Call.register row).after r).contains row.language = true ∧
      ((Call.register row).after r).without row.language = r := by
    obtain ⟨hno, -⟩ | ⟨-, heff⟩ := (Call.register row).after_cases r
    · rw [hregister] at hno
      cases hno
    · rw [without_effect heff BEq.rfl, hcoherent.without_eq_self habsent]
      generalize (Call.register row).after r = r' at heff
      cases heff with
      | register _ free => exact ⟨contains_of_find? (Table.find?_insert_self _ _ _), rfl⟩
  obtain ⟨hpresent, hrest⟩ := without_run hlater hregistered.1
  show (Call.unregister row.language).perform (run ((Call.register row).after r) later) = _
  rw [Call.perform_unregister, unregister_eq, if_pos hpresent, hrest, hregistered.2]

namespace Sample

/-- A registry that keeps a grammar of one language and an alias of another. -/
def settled : List Call :=
  [.register Row.go, .register { Row.python with grammarModule := "old" }, .addAlias ".inc" .go,
   .grammar packages .python]

/-- Calls on a third language: a grammar that is missing and then found, an alias, one that is
refused, a second row and a query. -/
def excursion : List Call :=
  [.grammar [] .rust, .grammar packages .rust, .addAlias ".rlib" .rust, .addAlias "inc" .rust,
   .register { rowFrom "new" with extensions := ["rs", ".rlib", "rlb"] },
   .highlightQuery packages .rust]

end Sample

theorem unregister_restores_sample :
    (run empty Sample.settled).contains .rust = false ∧
      (Call.unregister .rust).perform
        (run (run empty Sample.settled) (.register (Sample.rowFrom "old") :: Sample.excursion)) =
        { result := .ok (.removed true), state := run empty Sample.settled, notices := [] } := by
  have habsent : (run empty Sample.settled).contains .rust = false := by decide +kernel
  have hregister : (Call.register (Sample.rowFrom "old")).succeeds (run empty Sample.settled) =
      true := by
    decide +kernel
  have hlater : ∀ call ∈ Sample.excursion, call.isOn .rust = true := by decide +kernel
  exact ⟨habsent, @unregister_restores _ _ (Sample.rowFrom "old") habsent hregister hlater⟩

end Registry
end Polyglot
