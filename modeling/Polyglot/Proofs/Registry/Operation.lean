/-
When a registry refuses an operation, and what a refusal leaves behind.

A row is refused for the first of its extensions that belongs to another language, an alias because
the language has no row or the extension belongs to another one.  `Operation` takes the calls of a run
together with the look-ups that only read: an operation that fails, or finds nothing to remove, leaves
rows, routes, grammars and queries as they were.
-/
import Polyglot.Language.Builtin
import Polyglot.Proofs.Registry.Call

namespace Polyglot
namespace Registry

open Table (find?)

/-! ## Extensions of other languages -/

/-- An extension, without the dot in front of it, belongs to another language. -/
def OwnedByOther (r : Registry) (language : Language) (ext : String) (owner : Language) : Prop :=
  find? r.routes (Text.dropDot ext) = some owner ∧ owner ≠ language

/-- An extension belongs to another language than the row's, and none declared before it does. -/
structure FirstOwned (r : Registry) (row : Row) (ext : String) (owner : Language) : Prop where
  owned : r.OwnedByOther row.language ext owner
  first : ∃ before after, row.extensions = before ++ ext :: after ∧
    ∀ e ∈ before, ∀ other, ¬ r.OwnedByOther row.language e other

/-- What registration finds in the way at one extension: the extension with its owner. -/
def obstacle? (r : Registry) (language : Language) (ext : String) : Option (String × Language) :=
  match find? r.routes (Text.dropDot ext) with
  | some owner => if owner = language then none else some (ext, owner)
  | none => none

section Refusal

variable {r : Registry} {row : Row} {ext : String} {language owner : Language}

theorem obstacle?_eq_some_iff {e : String} :
    r.obstacle? language e = some (ext, owner) ↔ e = ext ∧ r.OwnedByOther language e owner := by
  rw [obstacle?, OwnedByOther]
  cases find? r.routes (Text.dropDot e) with
  | none => simp
  | some holder =>
      by_cases hholder : holder = language
      · simp only [hholder, if_true, reduceCtorEq, Option.some.injEq, false_iff]
        rintro ⟨-, rfl, hne⟩
        exact hne rfl
      · simp only [hholder, if_false, Option.some.injEq, Prod.mk.injEq]
        refine and_congr_right fun _ => ⟨?_, And.left⟩
        rintro rfl
        exact ⟨rfl, hholder⟩

theorem obstacle?_eq_none_iff :
    r.obstacle? language ext = none ↔ ∀ other, ¬ r.OwnedByOther language ext other := by
  rw [Option.eq_none_iff_forall_ne_some]
  constructor
  · intro h other howned
    exact h (ext, other) (obstacle?_eq_some_iff.mpr ⟨rfl, howned⟩)
  · intro h pair hfound
    exact h pair.2 (obstacle?_eq_some_iff.mp hfound).2

theorem conflict?_eq_some_iff :
    r.conflict? row = some (ext, owner) ↔ r.FirstOwned row ext owner := by
  show row.extensions.findSome? (r.obstacle? row.language) = some (ext, owner) ↔ _
  rw [List.findSome?_eq_some_iff]
  constructor
  · rintro ⟨before, e, after, hsplit, hfound, hbefore⟩
    obtain ⟨rfl, howned⟩ := obstacle?_eq_some_iff.mp hfound
    refine ⟨howned, before, after, hsplit, ?_⟩
    intro e' he'
    exact obstacle?_eq_none_iff.mp (hbefore e' he')
  · rintro ⟨howned, before, after, hsplit, hbefore⟩
    refine ⟨before, ext, after, hsplit, obstacle?_eq_some_iff.mpr ⟨rfl, howned⟩, ?_⟩
    intro e he
    exact obstacle?_eq_none_iff.mpr (hbefore e he)

theorem register_eq_error_iff {fault : Fault} :
    r.register row = .error fault ↔
      ∃ ext owner, r.FirstOwned row ext owner ∧ fault = .registerTaken ext owner row.language := by
  rw [register]
  cases hconflict : r.conflict? row with
  | none =>
      constructor
      · intro h
        cases h
      · rintro ⟨ext, owner, hfirst, -⟩
        rw [← conflict?_eq_some_iff, hconflict] at hfirst
        cases hfirst
  | some found =>
      obtain ⟨ext, owner⟩ := found
      have hfirst := conflict?_eq_some_iff.mp hconflict
      constructor
      · intro h
        exact ⟨ext, owner, hfirst, (Except.error.inj h).symm⟩
      · rintro ⟨ext', owner', hfirst', rfl⟩
        rw [← conflict?_eq_some_iff, hconflict] at hfirst'
        obtain ⟨rfl, rfl⟩ := Prod.mk.inj (Option.some.inj hfirst')
        rfl

theorem register_refused_iff :
    (∃ fault, r.register row = .error fault) ↔
      ∃ ext ∈ row.extensions, ∃ owner, r.OwnedByOther row.language ext owner := by
  constructor
  · rintro ⟨fault, h⟩
    obtain ⟨ext, owner, ⟨howned, before, after, hsplit, -⟩, -⟩ := register_eq_error_iff.mp h
    exact ⟨ext, by simp [hsplit], owner, howned⟩
  · rintro ⟨ext, hext, owner, howned, hother⟩
    obtain hrefused | ⟨r', -, heff⟩ := register_cases r row
    · exact hrefused
    · cases heff with
      | register _ free => exact absurd (free ext hext owner howned) hother

theorem addAlias_refused_iff :
    (∃ fault, r.addAlias ext language = .error fault) ↔
      r.contains language = false ∨ ∃ owner, r.OwnedByOther language ext owner := by
  constructor
  · rintro ⟨fault, h⟩
    by_cases hpresent : r.contains language = true
    · obtain ⟨row, hrow⟩ := find?_of_contains hpresent
      rw [addAlias, Registry.row, hrow] at h
      simp only [bind, Except.bind] at h
      split at h
      · rename_i owner howner
        by_cases hsame : owner = language
        · rw [if_pos hsame] at h
          cases h
        · exact .inr ⟨owner, howner, hsame⟩
      · cases h
    · exact .inl (Bool.eq_false_iff.mpr hpresent)
  · intro h
    obtain hrefused | ⟨r', -, heff⟩ := addAlias_cases r ext language
    · exact hrefused
    · cases heff with
      | addAlias _ _ present free =>
          obtain habsent | ⟨owner, howner, hother⟩ := h
          · rw [present] at habsent
            cases habsent
          · exact absurd (free owner howner) hother

end Refusal

/-! ## All operations -/

/-- A call of a run, or a look-up that only reads. -/
inductive Operation where
  | call (call : Call)
  | injectionQuery (packages : Packages) (language : Language)
  | localsQuery (packages : Packages) (language : Language)
  | lineLists (language : Language)

inductive Answer where
  | reply (reply : Reply)
  | text (text : String)
  | lists (lists : LineLists)

namespace Operation

def perform : Operation → Action Registry Answer
  | call c => do return .reply (← c.perform)
  | injectionQuery packages language => do
      return .text (← Registry.injectionQuery packages language)
  | localsQuery packages language => do return .text (← Registry.localsQuery packages language)
  | lineLists language => do
      let r ← Action.state
      return .lists (← Action.ofExcept ((r.lineLists language).mapError .registry))

/-- The registry that an operation leaves, also where it fails. -/
def after (r : Registry) (op : Operation) : Registry := (op.perform r).state

/-- An operation is refused if it fails, or is to remove something and does not find it. -/
def isRefused (r : Registry) (op : Operation) : Bool :=
  match (op.perform r).result with
  | .error _ => true
  | .ok (.reply (.removed found)) => !found
  | .ok _ => false

/-- The call that an operation is, if it is more than a look-up. -/
def call? : Operation → Option Call
  | call c => some c
  | _ => none

end Operation

/-- The registry after a run of operations. -/
def operate (r : Registry) (ops : List Operation) : Registry := ops.foldl Operation.after r

/-- A request that looks at the row of a language and then only at the packages. -/
theorem state_of_rowAction {α : Type} (language : Language) (read : Row → Except Polyglot.Fault α)
    (r : Registry) :
    ((rowAction language >>= fun row => Action.ofExcept (read row)) r).state = r := by
  cases hrow : find? r.rows language with
  | none =>
      have haction := rowAction_eq language r
      rw [hrow] at haction
      rw [Action.bind_of_error (by rw [haction]), haction]
  | some row =>
      rw [rowAction_bind hrow]
      rfl

theorem state_injectionQuery (packages : Packages) (language : Language) (r : Registry) :
    (injectionQuery packages language r).state = r :=
  state_of_rowAction language (fun row => row.readQueries packages row.injectionQueries) r

theorem state_localsQuery (packages : Packages) (language : Language) (r : Registry) :
    (localsQuery packages language r).state = r :=
  state_of_rowAction language (fun row => row.readQueries packages row.localsQueries) r

namespace Operation

theorem perform_call (c : Call) (r : Registry) :
    (call c).perform r =
      { result := (c.perform r).result.map .reply, state := (c.perform r).state,
        notices := (c.perform r).notices } :=
  Action.bind_return _ _ r

theorem after_call (c : Call) (r : Registry) : (call c).after r = c.after r := by
  rw [after, perform_call, Call.after]

theorem after_of_call?_eq_none {op : Operation} (h : op.call? = none) (r : Registry) :
    op.after r = r := by
  cases op with
  | call c => cases h
  | injectionQuery packages language =>
      show ((Registry.injectionQuery packages language >>= fun text =>
        pure (Answer.text text)) r).state = r
      rw [Action.bind_return]
      exact state_injectionQuery packages language r
  | localsQuery packages language =>
      show ((Registry.localsQuery packages language >>= fun text =>
        pure (Answer.text text)) r).state = r
      rw [Action.bind_return]
      exact state_localsQuery packages language r
  | lineLists language =>
      simp only [after, perform, bind, Action.bind, Action.state, Action.ofExcept]
      cases r.lineLists language <;> rfl

/-- A call is refused just if it does not succeed. -/
theorem isRefused_call (c : Call) (r : Registry) : (call c).isRefused r = !c.succeeds r := by
  rw [isRefused, perform_call, Call.succeeds]
  cases (c.perform r).result with
  | error fault => rfl
  | ok reply => cases reply <;> rfl

theorem after_of_isRefused {op : Operation} {r : Registry} (h : op.isRefused r = true) :
    op.after r = r := by
  cases op with
  | call c =>
      rw [isRefused_call, Bool.not_eq_true'] at h
      rw [after_call]
      obtain ⟨-, hsame⟩ | ⟨hsucceeds, -⟩ := c.after_cases r
      · exact hsame
      · rw [h] at hsucceeds
        cases hsucceeds
  | injectionQuery | localsQuery | lineLists => exact after_of_call?_eq_none rfl r

end Operation

/-- Look-ups leave no trace in a run of operations. -/
theorem operate_eq_run (r : Registry) (ops : List Operation) :
    operate r ops = run r (ops.filterMap Operation.call?) := by
  induction ops generalizing r with
  | nil => rfl
  | cons op rest ih =>
      show operate (op.after r) rest = _
      rw [ih, List.filterMap_cons]
      cases hcall : op.call? with
      | none => rw [Operation.after_of_call?_eq_none hcall]
      | some c =>
          cases op with
          | call c' =>
              rw [show c = c' from (Option.some.inj hcall).symm, Operation.after_call]
              rfl
          | injectionQuery | localsQuery | lineLists => cases hcall

/-- Registration is refused just if a declared extension belongs to another language, and is told
which is the first; an alias just if the language has no row or the extension belongs to another.
Whatever is refused leaves the registry as it was. -/
theorem refused_exactly_and_without_trace (r : Registry) :
    (∀ row, (∃ fault, r.register row = .error fault) ↔
      ∃ ext ∈ row.extensions, ∃ owner, r.OwnedByOther row.language ext owner) ∧
    (∀ row fault, r.register row = .error fault → ∃ ext owner, r.FirstOwned row ext owner ∧
      fault.message = "Extension " ++ ext ++ " already registered to " ++ owner.name ++
        ", cannot register to " ++ row.language.name) ∧
    (∀ ext language, (∃ fault, r.addAlias ext language = .error fault) ↔
      r.contains language = false ∨ ∃ owner, r.OwnedByOther language ext owner) ∧
    (∀ op : Operation, op.isRefused r = true → op.after r = r) := by
  refine ⟨fun row => register_refused_iff, ?_, fun ext language => addAlias_refused_iff, ?_⟩
  · intro row fault h
    obtain ⟨ext, owner, hfirst, rfl⟩ := register_eq_error_iff.mp h
    exact ⟨ext, owner, hfirst, rfl⟩
  · intro op h
    exact Operation.after_of_isRefused h

namespace Sample

/-- A registry in which an extension belongs to a language. -/
def owning : Registry := run empty [.register Row.rust]

/-- A row of another language that declares the extension twice. -/
def claiming : Row := { Row.go with extensions := ["go", ".rs", "rs"] }

end Sample

open Sample in
theorem refused_exactly_and_without_trace_sample :
    (∃ fault, owning.register claiming = .error fault ∧
      fault.message = "Extension .rs already registered to rust, cannot register to go") ∧
    (∃ fault, owning.addAlias ".rs" .go = .error fault) ∧
    (Operation.call (.register claiming)).after owning = owning ∧
    (Operation.call (.unregister .go)).after owning = owning ∧
    (Operation.lineLists .go).after owning = owning := by
  obtain ⟨hregister, hfirst, halias, hsame⟩ := refused_exactly_and_without_trace owning
  have howned : owning.OwnedByOther .go ".rs" .rust := ⟨by decide +kernel, by decide⟩
  have hconflict : owning.conflict? claiming = some (".rs", .rust) := by decide +kernel
  obtain ⟨fault, hfault⟩ :=
    (hregister claiming).mpr ⟨".rs", by simp [claiming], .rust, howned⟩
  obtain ⟨ext, owner, hfound, hmessage⟩ := hfirst claiming fault hfault
  rw [← conflict?_eq_some_iff, hconflict] at hfound
  obtain ⟨rfl, rfl⟩ := Prod.mk.inj (Option.some.inj hfound)
  refine ⟨⟨fault, hfault, hmessage.trans (by decide +kernel)⟩, ?_, ?_, ?_, ?_⟩
  · exact (halias ".rs" .go).mpr (.inl (by decide +kernel))
  · exact hsame _ (by decide +kernel)
  · exact hsame _ (by decide +kernel)
  · exact hsame _ (by decide +kernel)

end Registry
end Polyglot
