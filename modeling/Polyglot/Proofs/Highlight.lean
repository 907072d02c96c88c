/-
Which recognised name a capture is mapped to.

A capture is matched part by part, and a running best is replaced only by a match with more parts.
Read on the texts themselves, a name matches if it is the capture or if the capture goes on after it
with a dot (`Begins`), and its parts are one more than its dots (`partCount`).  The loop leads to the
name with the most parts among those that match, and to the first of them (`IsBest`): that is
`leads_bestMatch`, and `configure_maps_best` says it of all captures at once.
-/
import Mathlib.Data.List.Forall2
import Polyglot.Highlight
import Polyglot.Proofs.Text.Split

namespace Polyglot

namespace Highlight

/-! ## Matches on unsplit texts -/

/-- The name is the capture, or the capture goes on after it with a dot. -/
def Begins (name capture : String) : Prop :=
  name = capture ∨ name.toList ++ ['.'] <+: capture.toList

/-- The number of dot-separated parts of a name. -/
def partCount (name : String) : Nat := name.toList.count '.' + 1

/-- The name at a place matches the capture, no name that matches has more parts, and none before it
has as many. -/
def IsBest (names : List String) (capture : String) (j : Nat) : Prop :=
  ∃ name, names[j]? = some name ∧ Begins name capture ∧
    (∀ other ∈ names, Begins other capture → partCount other ≤ partCount name) ∧
    ∀ k other, names[k]? = some other → Begins other capture →
      partCount other = partCount name → j ≤ k

theorem length_parts (name : String) : (parts name).length = partCount name :=
  Text.length_split '.' name.toList

theorem isPrefixOf_parts_iff {name capture : String} :
    (parts name).isPrefixOf (parts capture) = true ↔ Begins name capture := by
  rw [List.isPrefixOf_iff_prefix, parts, parts, Text.split_isPrefix_split_iff, String.toList_inj,
    Begins]

/-- Two best names stand at one place. -/
theorem IsBest.unique {names : List String} {capture : String} {i j : Nat}
    (hi : IsBest names capture i) (hj : IsBest names capture j) : i = j := by
  obtain ⟨name, hat, hbegins, hmost, hfirst⟩ := hi
  obtain ⟨name', hat', hbegins', hmost', hfirst'⟩ := hj
  have hle := hmost name' (List.mem_of_getElem? hat') hbegins'
  have hle' := hmost' name (List.mem_of_getElem? hat) hbegins
  have hij : i ≤ j := hfirst j name' hat' hbegins' (by omega)
  have hji : j ≤ i := hfirst' i name hat hbegins (by omega)
  omega

/-! ## The running best -/

/-- The best match among the names that were seen: none, as long as none of them matched, and else
the best one with the number of its parts. -/
inductive Leads (capture : String) (seen : List String) : Match → Prop where
  | unmatched (none : ∀ name ∈ seen, ¬Begins name capture) : Leads capture seen {}
  | matched {j : Nat} {name : String} (stands : seen[j]? = some name)
      (begins : Begins name capture)
      (most : ∀ other ∈ seen, Begins other capture → partCount other ≤ partCount name)
      (first : ∀ k other, seen[k]? = some other → Begins other capture →
        partCount other = partCount name → j ≤ k) :
      Leads capture seen { index := some j, size := partCount name }

section Step

variable {capture name : String} {seen : List String} {best : Match}

/-- No name that was seen has more parts than the running best. -/
theorem Leads.partCount_le (h : Leads capture seen best) {other : String} (hother : other ∈ seen)
    (hbegins : Begins other capture) : partCount other ≤ best.size := by
  cases h with
  | unmatched none => exact absurd hbegins (none other hother)
  | matched _ _ most _ => exact most other hother hbegins

/-- A match with more parts than the running best takes its place. -/
theorem Leads.concat_better (h : Leads capture seen best) (hbegins : Begins name capture)
    (hmore : best.size < partCount name) :
    Leads capture (seen ++ [name]) { index := some seen.length, size := partCount name } := by
  refine .matched ?_ hbegins ?_ ?_
  · rw [List.getElem?_append_right (Nat.le_refl _), Nat.sub_self, List.getElem?_cons_zero]
  · intro other hother hb
    rcases List.mem_append.mp hother with hold | hnew
    · have := h.partCount_le hold hb
      omega
    · exact Nat.le_of_eq (congrArg partCount (List.mem_singleton.mp hnew))
  · intro k other hk hb heq
    -- A name at an earlier place was seen before, and has fewer parts.
    rcases Nat.lt_or_ge k seen.length with hlt | hge
    · rw [List.getElem?_append_left hlt] at hk
      have := h.partCount_le (List.mem_of_getElem? hk) hb
      omega
    · exact hge

/-- A name that does not match, or has no more parts, leaves the running best in its place. -/
theorem Leads.concat_same (h : Leads capture seen best)
    (hnot : ¬(best.size < partCount name ∧ Begins name capture)) :
    Leads capture (seen ++ [name]) best := by
  cases h with
  | unmatched none =>
      refine .unmatched fun other hother => ?_
      rcases List.mem_append.mp hother with hold | hnew
      · exact none other hold
      · rw [List.mem_singleton.mp hnew]
        exact fun hb => hnot ⟨Nat.succ_pos _, hb⟩
  | @matched j best stands begins most first =>
      have hj : j < seen.length := (List.getElem?_eq_some_iff.mp stands).1
      refine .matched ?_ begins ?_ ?_
      · rw [List.getElem?_append_left hj, stands]
      · intro other hother hb
        rcases List.mem_append.mp hother with hold | hnew
        · exact most other hold hb
        · rw [List.mem_singleton.mp hnew] at hb ⊢
          exact Nat.le_of_not_lt fun hlt => hnot ⟨hlt, hb⟩
      · intro k other hk hb heq
        rcases Nat.lt_or_ge k seen.length with hlt | hge
        · rw [List.getElem?_append_left hlt] at hk
          exact first k other hk hb heq
        · omega

end Step

/-- The loop leads from the best of the names that were seen to the best of all. -/
theorem leads_bestMatch {capture : String} {seen : List String} {best : Match}
    (h : Leads capture seen best) (rest : List String) :
    Leads capture (seen ++ rest)
      (bestMatch (parts capture) seen.length best (rest.map parts)) := by
  induction rest generalizing seen best with
  | nil =>
      rw [List.append_nil]
      exact h
  | cons name rest ih =>
      have hseen : seen ++ name :: rest = (seen ++ [name]) ++ rest := by simp
      have hlength : seen.length + 1 = (seen ++ [name]).length := by simp
      rw [List.map_cons, bestMatch, length_parts, hseen, hlength]
      split
      · rename_i hbetter
        rw [Bool.and_eq_true, decide_eq_true_eq, isPrefixOf_parts_iff] at hbetter
        exact ih (h.concat_better hbetter.2 hbetter.1)
      · rename_i hnot
        rw [Bool.and_eq_true, decide_eq_true_eq, isPrefixOf_parts_iff] at hnot
        exact ih (h.concat_same hnot)

/-- A capture is mapped to the best name for it, and to none just if no name matches. -/
theorem indexOf_spec (names : List String) (capture : String) :
    (∀ j, indexOf names capture = some j ↔ IsBest names capture j) ∧
      (indexOf names capture = none ↔ ¬∃ name ∈ names, Begins name capture) := by
  have hnone : Leads capture [] {} := .unmatched fun _ hname => absurd hname List.not_mem_nil
  have hleads : Leads capture names (bestMatch (parts capture) 0 {} (names.map parts)) :=
    leads_bestMatch hnone names
  rw [indexOf]
  generalize bestMatch (parts capture) 0 {} (names.map parts) = best at hleads ⊢
  cases hleads with
  | unmatched none =>
      refine ⟨fun j => iff_of_false (by simp) ?_, iff_of_true rfl ?_⟩
      · rintro ⟨name, hat, hbegins, -⟩
        exact none name (List.mem_of_getElem? hat) hbegins
      · rintro ⟨name, hname, hbegins⟩
        exact none name hname hbegins
  | @matched j name stands begins most first =>
      have hbest : IsBest names capture j := ⟨name, stands, begins, most, first⟩
      refine ⟨fun k => ⟨fun hk => ?_, fun hk => ?_⟩, iff_of_false (by simp) (not_not_intro ?_)⟩
      · exact Option.some.inj hk ▸ hbest
      · exact congrArg some (hbest.unique hk)
      · exact ⟨name, List.mem_of_getElem? stands, begins⟩

/-- Configuring gives every capture one place, whatever was there before: that of the recognised
name with the most parts that is the capture or is followed by a dot in it, of several the first, and
none where there is no such name. -/
theorem configure_maps_best (h : Highlight) (names : List String) (previous : List (Option Nat)) :
    ({ h with indices := previous }.configure names).indices = (h.configure names).indices ∧
      List.Forall₂ (fun capture entry =>
          (∀ j, entry = some j ↔ IsBest names capture j) ∧
            (entry = none ↔ ¬∃ name ∈ names, Begins name capture))
        h.captures (h.configure names).indices := by
  refine ⟨rfl, ?_⟩
  show List.Forall₂ _ h.captures (h.captures.map (indexOf names))
  rw [List.forall₂_map_right_iff, List.forall₂_same]
  exact fun capture _ => indexOf_spec names capture

/-- An empty name has one part, and of two names with as many parts the first is taken. -/
example : ["", ".x", "a.b.", "abc"].map (indexOf ["", "a.b", "a", "a.b"]) =
    [some 0, some 0, some 1, none] := by
  decide +kernel

end Highlight
end Polyglot
