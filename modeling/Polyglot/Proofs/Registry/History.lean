/-
What a registry holds is decided by its history.

The history of a run is the list of its calls that succeeded.  An extension is routed to a language
if some call since that language was last removed routed it there, and the languages stand in the
order in which they were first registered since their last removal.  `Follows` states this of a
registry and a history; every effect of a call keeps it when the call is added to the history.
-/
import Polyglot.Proofs.Registry.Coherence

namespace Polyglot
namespace Registry

namespace Call

def removes (language : Language) : Call → Bool
  | unregister l => l == language
  | _ => false

def registers (language : Language) : Call → Bool
  | register row => row.language == language
  | _ => false

/-- Whether a call, if it succeeds, routes an extension to a language. -/
def routes (e : String) (language : Language) : Call → Bool
  | register row => row.language == language && (row.extensions.map Text.dropDot).contains e
  | addAlias ext l => l == language && Text.dropDot ext == e
  | _ => false

theorem registers_register_iff {row : Row} {language : Language} :
    (register row).registers language = true ↔ row.language = language := beq_iff_eq

theorem routes_register_iff {row : Row} {e : String} {language : Language} :
    (register row).routes e language = true ↔
      row.language = language ∧ e ∈ row.extensions.map Text.dropDot := by
  rw [routes, Bool.and_eq_true, beq_iff_eq, List.contains_iff_mem]

theorem routes_addAlias_iff {ext e : String} {l language : Language} :
    (addAlias ext l).routes e language = true ↔ l = language ∧ Text.dropDot ext = e := by
  rw [routes, Bool.and_eq_true, beq_iff_eq, beq_iff_eq]

theorem removes_unregister_iff {l language : Language} :
    (unregister l).removes language = true ↔ l = language := beq_iff_eq

end Call

/-- The calls of a run that succeed, in their order. -/
def accepted (r : Registry) : List Call → List Call
  | [] => []
  | call :: rest =>
      if call.succeeds r then call :: accepted (call.after r) rest else accepted (call.after r) rest

/-- The calls after the last removal of a language. -/
def since (language : Language) (history : List Call) : List Call :=
  (history.reverse.takeWhile fun call => !call.removes language).reverse

/-- The place in the history at which a language was first registered since its last removal. -/
def registeredAt (language : Language) (history : List Call) : Nat :=
  history.length - (since language history).length +
    (since language history).findIdx (Call.registers language)

/-- What is kept by every call that succeeds in a run is still there after the run. -/
theorem run_of_accepted {P : Registry → Prop} {Q : Call → Prop}
    (hstep : ∀ {r r' : Registry} {call : Call}, Effect r call r' → Q call → P r → P r')
    {r : Registry} {calls : List Call} (hcalls : ∀ call ∈ accepted r calls, Q call)
    (h : P r) : P (run r calls) := by
  induction calls generalizing r with
  | nil => exact h
  | cons call rest ih =>
      show P (run (call.after r) rest)
      rw [accepted] at hcalls
      rcases call.after_cases r with ⟨hno, hsame⟩ | ⟨hyes, heff⟩
      · rw [hno, if_neg Bool.false_ne_true, hsame] at hcalls
        rw [hsame]
        exact ih hcalls h
      · rw [if_pos hyes] at hcalls
        obtain ⟨hcall, hrest⟩ := List.forall_mem_cons.mp hcalls
        exact ih hrest (hstep heff hcall h)

theorem Coherent.run {r : Registry} (h : Coherent r) (calls : List Call) : Coherent (run r calls) :=
  run_of_accepted (P := Coherent) (Q := fun _ => True) (fun heff _ h => h.effect heff)
    (fun _ _ => trivial) h

/-! ## One more call -/

theorem since_concat (language : Language) (history : List Call) (call : Call) :
    since language (history ++ [call]) =
      if call.removes language then [] else since language history ++ [call] := by
  rw [since, List.reverse_append, List.reverse_singleton, List.singleton_append,
    List.takeWhile_cons]
  cases call.removes language
  · exact List.reverse_cons
  · rfl

theorem length_since_le (language : Language) (history : List Call) :
    (since language history).length ≤ history.length := by
  have hle : (history.reverse.takeWhile fun call => !call.removes language).length ≤
      history.reverse.length := (List.takeWhile_prefix _).length_le
  rw [List.length_reverse] at hle
  rw [since, List.length_reverse]
  exact hle

theorem any_since_concat {language : Language} {call : Call}
    (hkeep : call.removes language = false) (history : List Call) (p : Call → Bool) :
    (since language (history ++ [call])).any p = ((since language history).any p || p call) := by
  rw [since_concat, hkeep, if_neg Bool.false_ne_true, List.any_append, List.any_cons,
    List.any_nil, Bool.or_false]

theorem any_since_removed {language : Language} {call : Call}
    (hgone : call.removes language = true) (history : List Call) (p : Call → Bool) :
    (since language (history ++ [call])).any p = false := by
  rw [since_concat, if_pos hgone, List.any_nil]

theorem registeredAt_lt {language : Language} {history : List Call}
    (h : (since language history).any (Call.registers language) = true) :
    registeredAt language history < history.length := by
  have hlt := List.findIdx_lt_length.mpr (List.any_eq_true.mp h)
  have hle := length_since_le language history
  rw [registeredAt]
  omega

/-- A language that is registered keeps its place in the history. -/
theorem registeredAt_concat {language : Language} {history : List Call} {call : Call}
    (h : (since language history).any (Call.registers language) = true)
    (hkeep : call.removes language = false) :
    registeredAt language (history ++ [call]) = registeredAt language history := by
  have hlt := List.findIdx_lt_length.mpr (List.any_eq_true.mp h)
  have hle := length_since_le language history
  rw [registeredAt, registeredAt, since_concat, hkeep, if_neg Bool.false_ne_true,
    List.findIdx_append, if_pos hlt, List.length_append, List.length_append,
    List.length_singleton]
  omega

/-- A language that is not yet registered gets the place of the call that registers it. -/
theorem registeredAt_new {language : Language} {history : List Call} {call : Call}
    (h : (since language history).any (Call.registers language) = false)
    (hkeep : call.removes language = false) (hreg : call.registers language = true) :
    registeredAt language (history ++ [call]) = history.length := by
  have hnot : (since language history).findIdx (Call.registers language) =
      (since language history).length := by
    rw [List.findIdx_eq_length]
    exact fun call hcall => Bool.eq_false_iff.mpr (List.any_eq_false.mp h call hcall)
  have hle := length_since_le language history
  rw [registeredAt, since_concat, hkeep, if_neg Bool.false_ne_true, List.findIdx_append, hnot,
    if_neg (Nat.lt_irrefl _), List.length_append, List.length_append, List.length_singleton,
    List.findIdx_cons, hreg]
  simp only [cond_true]
  omega

/-! ## A registry follows its history -/

structure Follows (r : Registry) (history : List Call) : Prop where
  routed : ∀ e language, Table.find? r.routes e = some language ↔
    (since language history).any (Call.routes e language) = true
  listed : ∀ language, language ∈ r.languages ↔
    (since language history).any (Call.registers language) = true
  ordered : r.languages.Pairwise fun a b => registeredAt a history < registeredAt b history

theorem mem_languages_iff {r : Registry} {language : Language} :
    language ∈ r.languages ↔ r.contains language = true := by
  rw [contains, Table.contains_iff]
  constructor
  · exact fun h => ⟨language, h, BEq.rfl⟩
  · rintro ⟨l, hl, heq⟩
    exact eq_of_beq heq ▸ hl

theorem follows_empty : Follows empty [] where
  routed e language := by simp [empty, since, Table.find?]
  listed language := by simp [empty, since, languages, Table.keys]
  ordered := List.Pairwise.nil

/-- The languages of a registry keep their order when a call removes none of them. -/
theorem Follows.ordered_concat {r : Registry} {history : List Call} {call : Call}
    (h : Follows r history) {languages : List Language} (hsub : languages.Sublist r.languages)
    (hkeep : ∀ l ∈ languages, call.removes l = false) :
    languages.Pairwise fun a b =>
      registeredAt a (history ++ [call]) < registeredAt b (history ++ [call]) := by
  have hpair := h.ordered.sublist hsub
  refine List.Pairwise.imp_of_mem (fun {a b} ha hb hlt => ?_) hpair
  rw [registeredAt_concat ((h.listed a).mp (hsub.subset ha)) (hkeep a ha),
    registeredAt_concat ((h.listed b).mp (hsub.subset hb)) (hkeep b hb)]
  exact hlt

/-- A call that changes neither rows nor routes, and is to change neither. -/
theorem Follows.concat_of_same {r r' : Registry} {history : List Call} {call : Call}
    (h : Follows r history) (hrows : r'.rows = r.rows) (hroutes : r'.routes = r.routes)
    (hremoves : ∀ l, call.removes l = false) (hregisters : ∀ l, call.registers l = false)
    (hcall : ∀ e l, call.routes e l = false) : Follows r' (history ++ [call]) where
  routed e l := by
    rw [hroutes, any_since_concat (hremoves l), hcall, Bool.or_false]
    exact h.routed e l
  listed l := by
    rw [languages, hrows, any_since_concat (hremoves l), hregisters, Bool.or_false]
    exact h.listed l
  ordered := by
    rw [languages, hrows]
    exact h.ordered_concat (List.Sublist.refl _) fun l _ => hremoves l

theorem Follows.register {r : Registry} {history : List Call} (h : Follows r history) (row : Row)
    (free : ∀ ext ∈ row.extensions, ∀ owner,
      Table.find? r.routes (Text.dropDot ext) = some owner → owner = row.language) :
    Follows { r with
      rows := Table.insert r.rows row.language row,
      routes := route r.routes row.extensions row.language } (history ++ [.register row]) where
  routed e l := by
    have hkeep : (Call.register row).removes l = false := rfl
    rw [find?_route, any_since_concat hkeep, Bool.or_eq_true, ← h.routed e l,
      Call.routes_register_iff]
    by_cases he : e ∈ row.extensions.map Text.dropDot
    · -- Before the call the extension was free or already belonged to the row's language.
      obtain ⟨ext, hext, rfl⟩ := List.mem_map.mp he
      rw [if_pos he, Option.some.injEq]
      constructor
      · exact fun hl => .inr ⟨hl, he⟩
      · rintro (hfind | ⟨hl, _⟩)
        · exact (free ext hext l hfind).symm
        · exact hl
    · rw [if_neg he]
      exact ⟨.inl, fun hor => hor.elim id fun hr => absurd hr.2 he⟩
  listed l := by
    have hkeep : (Call.register row).removes l = false := rfl
    rw [mem_languages_iff, any_since_concat hkeep, Bool.or_eq_true, ← h.listed l,
      mem_languages_iff, Call.registers_register_iff]
    show Table.contains (Table.insert r.rows row.language row) l = true ↔
      Table.contains r.rows l = true ∨ row.language = l
    rw [Table.contains_insert, Bool.or_eq_true, beq_iff_eq, or_comm, eq_comm (a := l)]
  ordered := by
    show (Table.keys (Table.insert r.rows row.language row)).Pairwise _
    rw [Table.keys_insert]
    by_cases hc : Table.contains r.rows row.language = true
    · rw [if_pos hc]
      exact h.ordered_concat (List.Sublist.refl _) fun _ _ => rfl
    · rw [if_neg hc, List.pairwise_append]
      refine ⟨h.ordered_concat (List.Sublist.refl _) fun _ _ => rfl,
        List.pairwise_singleton _ _, fun a ha b hb => ?_⟩
      have hnew : (since row.language history).any (Call.registers row.language) = false := by
        rw [Bool.eq_false_iff, ne_eq, ← h.listed, mem_languages_iff]
        exact hc
      have ha' := (h.listed a).mp ha
      have hkeep : ∀ l, (Call.register row).removes l = false := fun _ => rfl
      rw [List.mem_singleton] at hb
      rw [hb, registeredAt_new hnew (hkeep _) (Call.registers_register_iff.mpr rfl),
        registeredAt_concat ha' (hkeep a)]
      exact registeredAt_lt ha'

theorem Follows.unregister {r : Registry} {history : List Call} (h : Follows r history)
    (hcoherent : Coherent r) (language : Language) :
    Follows {
      rows := Table.erase r.rows language,
      routes := r.routes.filter fun e => e.2 ≠ language,
      grammars := Table.erase r.grammars language,
      queries := Table.erase r.queries language } (history ++ [.unregister language]) where
  routed e l := by
    rw [find?_routes_unregister hcoherent, Option.filter_eq_some_iff, decide_eq_true_eq]
    by_cases heq : language = l
    · rw [any_since_removed (Call.removes_unregister_iff.mpr heq)]
      exact ⟨fun hr => absurd heq.symm hr.2, fun hf => absurd hf Bool.false_ne_true⟩
    · have hkeep : (Call.unregister language).removes l = false :=
        Bool.eq_false_iff.mpr (mt Call.removes_unregister_iff.mp heq)
      have hnot : (Call.unregister language).routes e l = false := rfl
      rw [any_since_concat hkeep, hnot, Bool.or_false, ← h.routed e l]
      exact and_iff_left (Ne.symm heq)
  listed l := by
    rw [mem_languages_iff]
    show Table.contains (Table.erase r.rows language) l = true ↔ _
    rw [Table.contains_erase, Bool.and_eq_true, Bool.not_eq_true', beq_eq_false_iff_ne]
    by_cases heq : language = l
    · rw [any_since_removed (Call.removes_unregister_iff.mpr heq)]
      exact ⟨fun hr => absurd heq.symm hr.1, fun hf => absurd hf Bool.false_ne_true⟩
    · have hkeep : (Call.unregister language).removes l = false :=
        Bool.eq_false_iff.mpr (mt Call.removes_unregister_iff.mp heq)
      have hnot : (Call.unregister language).registers l = false := rfl
      rw [any_since_concat hkeep, hnot, Bool.or_false, ← h.listed l, mem_languages_iff]
      exact and_iff_right (Ne.symm heq)
  ordered := by
    show (Table.keys (Table.erase r.rows language)).Pairwise _
    rw [Table.keys_erase]
    refine h.ordered_concat List.filter_sublist fun l hl => ?_
    have hne := (List.mem_filter.mp hl).2
    rw [Bool.not_eq_true', beq_eq_false_iff_ne] at hne
    exact beq_eq_false_iff_ne.mpr (Ne.symm hne)

theorem Follows.addAlias {r : Registry} {history : List Call} (h : Follows r history)
    (ext : String) (language : Language)
    (free : ∀ owner, Table.find? r.routes (Text.dropDot ext) = some owner → owner = language) :
    Follows { r with routes := Table.insert r.routes (Text.dropDot ext) language }
      (history ++ [.addAlias ext language]) where
  routed e l := by
    have hkeep : (Call.addAlias ext language).removes l = false := rfl
    rw [Table.find?_insert, any_since_concat hkeep, Bool.or_eq_true, ← h.routed e l,
      Call.routes_addAlias_iff]
    by_cases he : e = Text.dropDot ext
    · rw [if_pos (beq_iff_eq.mpr he), Option.some.injEq]
      constructor
      · exact fun hl => .inr ⟨hl, he.symm⟩
      · rintro (hfind | ⟨hl, _⟩)
        · exact (free l (he ▸ hfind)).symm
        · exact hl
    · rw [if_neg (mt beq_iff_eq.mp he)]
      exact ⟨.inl, fun hor => hor.elim id fun hr => absurd hr.2.symm he⟩
  listed l := by
    have hkeep : (Call.addAlias ext language).removes l = false := rfl
    have hnot : (Call.addAlias ext language).registers l = false := rfl
    rw [any_since_concat hkeep, hnot, Bool.or_false]
    exact h.listed l
  ordered := h.ordered_concat (List.Sublist.refl _) fun _ _ => rfl

theorem Follows.effect {r r' : Registry} {history : List Call} {call : Call}
    (h : Follows r history) (hcoherent : Coherent r) (heff : Effect r call r') :
    Follows r' (history ++ [call]) := by
  cases heff with
  | register row free => exact h.register row free
  | unregister language present => exact h.unregister hcoherent language
  | addAlias ext language present free => exact h.addAlias ext language free
  | grammarKept | grammarLoaded | queryKept | queryRead =>
      exact h.concat_of_same rfl rfl (fun _ => rfl) (fun _ => rfl) fun _ _ => rfl

/-- A registry that follows its history still does so after more calls. -/
theorem Follows.run {r : Registry} {history : List Call} (h : Follows r history)
    (hcoherent : Coherent r) (calls : List Call) :
    Follows (run r calls) (history ++ accepted r calls) := by
  induction calls generalizing r history with
  | nil =>
      rw [accepted, List.append_nil]
      exact h
  | cons call rest ih =>
      show Follows (Registry.run (call.after r) rest) _
      rw [accepted]
      rcases call.after_cases r with ⟨hno, hsame⟩ | ⟨hyes, heff⟩
      · rw [hno, if_neg Bool.false_ne_true, hsame]
        exact ih h hcoherent
      · rw [if_pos hyes, List.append_cons]
        exact ih (h.effect hcoherent heff) (hcoherent.effect heff)

theorem follows_run (calls : List Call) : Follows (run empty calls) (accepted empty calls) :=
  follows_empty.run coherent_empty calls

/-! ## The history decides -/

/-- Calls that do not remove a language only add to what happened since its last removal. -/
theorem since_append {language : Language} {more : List Call}
    (h : ∀ call ∈ more, call.removes language = false) (history : List Call) :
    since language (history ++ more) = since language history ++ more := by
  have hall : ∀ call ∈ more.reverse, (!call.removes language) = true := by
    intro call hcall
    rw [h call (List.mem_reverse.mp hcall)]
    rfl
  rw [since, List.reverse_append, List.takeWhile_append_of_pos hall, List.reverse_append,
    List.reverse_reverse]
  rfl

/-- An extension stays with its language until that language is removed. -/
theorem find?_routes_of_not_removed {calls later : List Call} {e : String} {language : Language}
    (hfind : Table.find? (run empty calls).routes e = some language)
    (hkeep : ∀ call ∈ accepted (run empty calls) later, call.removes language = false) :
    Table.find? (run empty (calls ++ later)).routes e = some language := by
  have hbefore := follows_run calls
  have hafter := hbefore.run (coherent_run calls) later
  rw [← run_append] at hafter
  rw [hafter.routed, since_append hkeep, List.any_append, Bool.or_eq_true]
  exact .inl ((hbefore.routed e language).mp hfind)

/-- After every run an extension is routed to a language exactly if a call of the history routed it
there since that language was last removed.  No two languages can claim one extension in this way,
and the owner of an extension changes only after it was removed.  The languages with a row are those
registered since their last removal, in the order of their first registrations since then. -/
theorem history_decides_registry (calls : List Call) :
    (∀ e language, Table.find? (run empty calls).routes e = some language ↔
      ∃ call ∈ since language (accepted empty calls), call.routes e language = true) ∧
    (∀ e language language',
      (∃ call ∈ since language (accepted empty calls), call.routes e language = true) →
      (∃ call ∈ since language' (accepted empty calls), call.routes e language' = true) →
      language = language') ∧
    (∀ later e language, Table.find? (run empty calls).routes e = some language →
      (∀ call ∈ accepted (run empty calls) later, call.removes language = false) →
      Table.find? (run empty (calls ++ later)).routes e = some language) ∧
    (∀ language, language ∈ (run empty calls).languages ↔
      ∃ call ∈ since language (accepted empty calls), call.registers language = true) ∧
    (run empty calls).languages.Pairwise fun a b =>
      registeredAt a (accepted empty calls) < registeredAt b (accepted empty calls) := by
  have hfollows := follows_run calls
  have hroutes : ∀ e language, Table.find? (run empty calls).routes e = some language ↔
      ∃ call ∈ since language (accepted empty calls), call.routes e language = true := by
    intro e language
    rw [hfollows.routed, List.any_eq_true]
  refine ⟨hroutes, fun e l l' h h' => ?_, fun later e l => find?_routes_of_not_removed,
    fun l => ?_, hfollows.ordered⟩
  · rw [← hroutes] at h h'
    rw [h, Option.some.injEq] at h'
    exact h'
  · rw [hfollows.listed, List.any_eq_true]

namespace Sample

/-- The extension `inc` is refused to one language while it belongs to another, and goes to it after
that other was removed, although the other has come back by then. -/
def calls : List Call :=
  [.register Row.go, .addAlias ".inc" .go, .register Row.rust, .addAlias "inc" .rust,
   .unregister .go, .register Row.go, .addAlias "inc" .rust]

end Sample

theorem history_decides_sample :
    Table.find? (run empty Sample.calls).routes "inc" = some .rust ∧
      (run empty Sample.calls).languages = [.rust, .go] ∧
      (∃ call ∈ since .rust (accepted empty Sample.calls), call.routes "inc" .rust = true) ∧
      Table.find? (run empty (Sample.calls ++ [.unregister .go])).routes "inc" = some .rust := by
  have hfind : Table.find? (run empty Sample.calls).routes "inc" = some .rust := by decide +kernel
  have hlist : (run empty Sample.calls).languages = [.rust, .go] := by decide +kernel
  have hkeep : ∀ call ∈ accepted (run empty Sample.calls) [.unregister .go],
      call.removes .rust = false := by decide +kernel
  have h := history_decides_registry Sample.calls
  exact ⟨hfind, hlist, (h.1 "inc" .rust).mp hfind, h.2.2.1 _ "inc" .rust hfind hkeep⟩

end Registry
end Polyglot
