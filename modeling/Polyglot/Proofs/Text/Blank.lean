/-
Blanks around a text.

Stripping a text leaves the one word in it that has nothing but blanks around it and no blank at an
end of its own (`strip_eq_iff`).
-/
import Mathlib.Data.List.DropRight
import Polyglot.Text.Blank

namespace Polyglot
namespace Text

/-- No blank stands at either end. -/
def isTrimmed (s : String) : Bool :=
  !s.toList.head?.any isBlank && !s.toList.getLast?.any isBlank

def isAllBlank (s : String) : Bool := s.toList.all isBlank

/-- The word stands in the text with nothing but blanks around it. -/
def StandsIn (word s : String) : Prop :=
  ∃ before after, s = before ++ word ++ after ∧ isAllBlank before = true ∧ isAllBlank after = true

/-! ## What is trimmed -/

section Trim

variable {p : Char → Bool}

theorem trim_of_ends {s : List Char} (hhead : s.head?.any p = false)
    (hlast : s.getLast?.any p = false) : trim p s = s := by
  cases s with
  | nil => rfl
  | cons c rest =>
      have hc : ¬p c = true := by simpa using hhead
      rw [trim, List.dropWhile_cons_of_neg hc]
      cases hreverse : (c :: rest).reverse with
      | nil => simp at hreverse
      | cons d more =>
          rw [← List.head?_reverse, hreverse] at hlast
          have hd : ¬p d = true := by simpa using hlast
          rw [List.dropWhile_cons_of_neg hd, ← hreverse, List.reverse_reverse]

theorem trim_append_of_all_left {before : List Char} (h : ∀ c ∈ before, p c = true)
    (s : List Char) : trim p (before ++ s) = trim p s := by
  rw [trim, trim, List.dropWhile_append_of_pos h]

theorem trim_append_of_all_right {after : List Char} (h : ∀ c ∈ after, p c = true)
    (s : List Char) : trim p (s ++ after) = trim p s := by
  rw [trim, trim, List.dropWhile_append]
  split
  · -- Nothing of `s` is left, so what follows it stands at the front and goes as well.
    rename_i hs
    rw [List.dropWhile_eq_nil_iff.mpr h, List.isEmpty_iff.mp hs]
  · rw [List.reverse_append, List.dropWhile_append_of_pos]
    intro c hc
    exact h c (List.mem_reverse.mp hc)

theorem trim_eq_rdropWhile (s : List Char) : trim p s = (s.dropWhile p).rdropWhile p := rfl

theorem exists_eq_append_trim (p : Char → Bool) (s : List Char) :
    ∃ before after, s = before ++ trim p s ++ after ∧ (∀ c ∈ before, p c = true) ∧
      ∀ c ∈ after, p c = true := by
  refine ⟨s.takeWhile p, (s.dropWhile p).rtakeWhile p, ?_, ?_, ?_⟩
  · rw [List.append_assoc, trim_eq_rdropWhile, List.rdropWhile_append_rtakeWhile,
      List.takeWhile_append_dropWhile]
  · intro c hc
    exact List.mem_takeWhile_imp hc
  · intro c hc
    exact List.mem_rtakeWhile_imp hc

theorem head?_dropWhile (p : Char → Bool) (s : List Char) : (s.dropWhile p).head?.any p = false := by
  have hstop := List.head?_dropWhile_not p s
  cases hhead : (s.dropWhile p).head? with
  | none => rfl
  | some c =>
      rw [hhead] at hstop
      exact hstop

theorem head?_trim (s : List Char) : (trim p s).head?.any p = false := by
  -- Dropping at the back leaves the front as it is, unless nothing is left.
  obtain ⟨dropped, hfront⟩ := List.rdropWhile_prefix p (s.dropWhile p)
  have hhead := head?_dropWhile p s
  rw [← hfront, ← trim_eq_rdropWhile] at hhead
  cases hword : trim p s with
  | nil => rfl
  | cons c rest =>
      rw [hword] at hhead
      exact hhead

theorem getLast?_trim (s : List Char) : (trim p s).getLast?.any p = false := by
  rw [trim, List.getLast?_reverse]
  exact head?_dropWhile p _

end Trim

/-! ## What is stripped -/

theorem strip_of_isTrimmed {s : String} (h : isTrimmed s = true) : strip s = s := by
  rw [isTrimmed, Bool.and_eq_true, Bool.not_eq_true', Bool.not_eq_true'] at h
  rw [strip, trim_of_ends h.1 h.2, String.ofList_toList]

theorem strip_sublist (s : String) : (strip s).toList.Sublist s.toList := by
  rw [strip, String.toList_ofList, trim]
  have hback := (List.dropWhile_sublist isBlank (l := (s.toList.dropWhile isBlank).reverse)).reverse
  rw [List.reverse_reverse] at hback
  exact hback.trans (List.dropWhile_sublist isBlank)

theorem isTrimmed_strip (s : String) : isTrimmed (strip s) = true := by
  rw [isTrimmed, strip, String.toList_ofList, head?_trim, getLast?_trim]
  rfl

theorem standsIn_strip (s : String) : StandsIn (strip s) s := by
  obtain ⟨before, after, heq, hbefore, hafter⟩ := exists_eq_append_trim isBlank s.toList
  refine ⟨String.ofList before, String.ofList after, ?_, ?_, ?_⟩
  · rw [strip, ← String.ofList_append, ← String.ofList_append, ← heq, String.ofList_toList]
  · rwa [isAllBlank, String.toList_ofList, List.all_eq_true]
  · rwa [isAllBlank, String.toList_ofList, List.all_eq_true]

theorem StandsIn.strip_eq {word s : String} (h : StandsIn word s) : strip s = strip word := by
  obtain ⟨before, after, rfl, hbefore, hafter⟩ := h
  rw [isAllBlank, List.all_eq_true] at hbefore hafter
  rw [strip, strip, String.toList_append, String.toList_append, trim_append_of_all_right hafter,
    trim_append_of_all_left hbefore]

theorem strip_eq_iff {s word : String} :
    strip s = word ↔ isTrimmed word = true ∧ StandsIn word s := by
  constructor
  · rintro rfl
    exact ⟨isTrimmed_strip s, standsIn_strip s⟩
  · rintro ⟨htrimmed, hstands⟩
    rw [hstands.strip_eq, strip_of_isTrimmed htrimmed]

end Text
end Polyglot
