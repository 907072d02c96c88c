/-
Pieces of a text between separators, and the dots in front of a text.

`split` is the splitting of the library, so that a text is put together again from its pieces, and
the pieces of a text around a separator are those before it and those behind it.
-/
import Mathlib.Data.List.Basic
import Mathlib.Data.List.TakeWhile
import Polyglot.Text.Split

namespace Polyglot
namespace Text

theorem split_cons_self (sep : Char) (s : List Char) :
    split sep (sep :: s) = [] :: split sep s := by
  rw [split, if_pos rfl]

/-- There is always a first piece, so a character that is no separator has a piece to go to. -/
theorem exists_split_eq_cons (sep : Char) (s : List Char) :
    ∃ piece pieces, split sep s = piece :: pieces := by
  cases s with
  | nil => exact ⟨[], [], rfl⟩
  | cons c rest =>
      by_cases hc : c = sep
      · subst hc
        exact ⟨[], split c rest, split_cons_self c rest⟩
      · rw [split, if_neg hc]
        split
        · exact ⟨_, _, rfl⟩
        · exact ⟨_, _, rfl⟩

theorem split_cons_of_ne {sep c : Char} (hc : c ≠ sep) {s : List Char} {piece : List Char}
    {pieces : List (List Char)} (hs : split sep s = piece :: pieces) :
    split sep (c :: s) = (c :: piece) :: pieces := by
  rw [split, if_neg hc, hs]

/-- There is one piece more than there are separators. -/
theorem length_split (sep : Char) (s : List Char) : (split sep s).length = s.count sep + 1 := by
  induction s with
  | nil => rfl
  | cons c rest ih =>
      by_cases hc : c = sep
      · subst hc
        rw [split_cons_self, List.length_cons, ih, List.count_cons_self]
      · obtain ⟨piece, pieces, hsplit⟩ := exists_split_eq_cons sep rest
        rw [split_cons_of_ne hc hsplit, List.count_cons_of_ne hc, ← ih, hsplit]
        rfl

/-- The pieces of a text begin those of another just if the first text is the second, or if the
second goes on after it with a separator. -/
theorem split_isPrefix_split_iff (sep : Char) (s t : List Char) :
    split sep s <+: split sep t ↔ s = t ∨ s ++ [sep] <+: t := by
  induction s generalizing t with
  | nil =>
      cases t with
      | nil => exact iff_of_true (List.prefix_refl _) (.inl rfl)
      | cons d t =>
          by_cases hd : d = sep
          · subst hd
            rw [split_cons_self]
            exact iff_of_true ⟨_, rfl⟩ (.inr ⟨t, rfl⟩)
          · obtain ⟨piece, pieces, ht⟩ := exists_split_eq_cons sep t
            rw [split_cons_of_ne hd ht, split]
            simp [List.cons_prefix_cons, Ne.symm hd]
  | cons c s ih =>
      obtain ⟨piece, pieces, hs⟩ := exists_split_eq_cons sep s
      cases t with
      | nil =>
          -- A text without characters has one piece, and that has no characters either.
          by_cases hc : c = sep
          · subst hc
            rw [split_cons_self, hs]
            simp [split, List.cons_prefix_cons]
          · rw [split_cons_of_ne hc hs]
            simp [split, List.cons_prefix_cons]
      | cons d t =>
          obtain ⟨piece', pieces', ht⟩ := exists_split_eq_cons sep t
          have hrest := ih t
          rw [hs, ht, List.cons_prefix_cons] at hrest
          by_cases hc : c = sep
          · by_cases hd : d = sep
            · subst hc hd
              rw [split_cons_self, split_cons_self, hs, ht]
              simp [List.cons_prefix_cons, hrest]
            · subst hc
              rw [split_cons_self, split_cons_of_ne hd ht]
              simp [List.cons_prefix_cons, Ne.symm hd]
          · by_cases hd : d = sep
            · subst hd
              rw [split_cons_self, split_cons_of_ne hc hs]
              simp [List.cons_prefix_cons, hc]
            · rw [split_cons_of_ne hc hs, split_cons_of_ne hd ht, List.cons_prefix_cons,
                List.cons.injEq, List.cons.injEq, List.cons_append, List.cons_prefix_cons, and_assoc,
                hrest, ← and_or_left]

theorem split_eq_splitOn (sep : Char) (s : List Char) : split sep s = s.splitOn sep := by
  induction s with
  | nil => rfl
  | cons c rest ih =>
      rw [List.splitOn_cons_eq_if_modifyHead, split, ih]
      by_cases hc : c = sep
      · rw [if_pos hc, if_pos (beq_iff_eq.mpr hc)]
      · rw [if_neg hc, if_neg (mt beq_iff_eq.mp hc)]
        cases hsplit : rest.splitOn sep with
        | nil => exact absurd hsplit (List.splitOn_ne_nil _ _)
        | cons piece pieces => rfl

/-- A text is put together again from its fields, so no two texts have the same. -/
theorem fields_injective (sep : Char) : Function.Injective (fields sep) := by
  intro a b h
  have hpieces : split sep a.toList = split sep b.toList :=
    List.map_injective_iff.mpr (fun _ _ heq => String.ofList_inj.mp heq) h
  rw [split_eq_splitOn, split_eq_splitOn] at hpieces
  refine String.toList_inj.mp ?_
  calc a.toList = [sep].intercalate (a.toList.splitOn sep) := (List.intercalate_splitOn sep).symm
    _ = [sep].intercalate (b.toList.splitOn sep) := by rw [hpieces]
    _ = b.toList := List.intercalate_splitOn sep

theorem not_mem_of_mem_split {sep : Char} {s piece : List Char} (h : piece ∈ split sep s) :
    sep ∉ piece := by
  induction s generalizing piece with
  | nil =>
      rw [split, List.mem_singleton] at h
      exact h ▸ List.not_mem_nil
  | cons c rest ih =>
      rw [split] at h
      by_cases hc : c = sep
      · rw [if_pos hc, List.mem_cons] at h
        rcases h with rfl | hrest
        · exact List.not_mem_nil
        · exact ih hrest
      · rw [if_neg hc] at h
        cases hsplit : split sep rest with
        | nil =>
            rw [hsplit, List.mem_singleton] at h
            rw [h, List.mem_singleton]
            exact Ne.symm hc
        | cons first pieces =>
            rw [hsplit] at h ih
            rcases List.mem_cons.mp h with rfl | hrest
            · exact List.not_mem_cons_of_ne_of_not_mem (Ne.symm hc) (ih List.mem_cons_self)
            · exact ih (List.mem_cons_of_mem _ hrest)

theorem split_of_not_mem {sep : Char} {s : List Char} (h : sep ∉ s) : split sep s = [s] := by
  rw [split_eq_splitOn, List.splitOn_eq_singleton h]

/-- A separator parts the pieces before it from those behind it. -/
theorem split_append_cons (sep : Char) (s t : List Char) :
    split sep (s ++ sep :: t) = split sep s ++ split sep t := by
  rw [split_eq_splitOn, split_eq_splitOn, split_eq_splitOn]
  exact List.splitOnP_append_cons s t BEq.rfl

theorem fields_append (sep : Char) (a b : String) :
    fields sep (a ++ String.singleton sep ++ b) = fields sep a ++ fields sep b := by
  simp [fields, split_append_cons]

/-- Texts without the separator are the fields of the text that joins them. -/
theorem fields_intercalate {sep : Char} {items : List String} (hne : items ≠ [])
    (h : ∀ item ∈ items, sep ∉ item.toList) :
    fields sep ((String.singleton sep).intercalate items) = items := by
  have hpieces : ∀ piece ∈ items.map String.toList, sep ∉ piece := by
    intro piece hpiece
    obtain ⟨item, hitem, rfl⟩ := List.mem_map.mp hpiece
    exact h item hitem
  have hsplit := List.splitOn_intercalate sep hpieces (by simpa using hne)
  rw [fields, String.toList_intercalate, String.toList_singleton, split_eq_splitOn, hsplit]
  simp

/-! ## The first separator -/

theorem cut?_of_not_mem {sep : Char} {a : String} (h : sep ∉ a.toList) (b : String) :
    cut? sep (a ++ String.singleton sep ++ b) = some (a, b) := by
  have hpass : ∀ c ∈ a.toList, decide (c ≠ sep) = true := by
    intro c hc
    rw [decide_eq_true_eq]
    intro heq
    exact h (heq ▸ hc)
  have htext : (a ++ String.singleton sep ++ b).toList = a.toList ++ sep :: b.toList := by
    simp
  rw [cut?, htext, List.dropWhile_append_of_pos hpass, List.takeWhile_append_of_pos hpass]
  simp

/-- What stands before the cut is a part of the text without separator. -/
theorem cut?_eq_some {sep : Char} {s a b : String} (h : cut? sep s = some (a, b)) :
    a.toList.Sublist s.toList ∧ sep ∉ a.toList := by
  rw [cut?] at h
  split at h
  · cases h
  · rw [Option.some.injEq, Prod.mk.injEq] at h
    rw [← h.1, String.toList_ofList]
    refine ⟨List.takeWhile_sublist _, ?_⟩
    intro hmem
    simpa using List.mem_takeWhile_imp hmem

/-! ## Dots in front -/

/-- No dot stands in front. -/
def isBare (s : String) : Bool := s.toList.head? != some '.'

theorem isBare_dropDots (s : String) : isBare (dropDots s) = true := by
  have hhead := List.head?_dropWhile_not (fun c => decide (c = '.')) s.toList
  rw [isBare, dropDots, String.toList_ofList, bne_iff_ne]
  intro hdot
  rw [hdot] at hhead
  simp at hhead

theorem dropDots_of_isBare {s : String} (h : isBare s = true) : dropDots s = s := by
  rw [isBare, bne_iff_ne] at h
  rw [dropDots]
  cases hlist : s.toList with
  | nil => rw [← String.ofList_toList (s := s), hlist]; rfl
  | cons c rest =>
      rw [hlist, List.head?_cons, ne_eq, Option.some.injEq] at h
      rw [List.dropWhile_cons_of_neg (by simpa using h), ← hlist, String.ofList_toList]

theorem dropDots_sublist (s : String) : (dropDots s).toList.Sublist s.toList := by
  rw [dropDots, String.toList_ofList]
  exact List.dropWhile_sublist _

theorem isBare_of_mem_fields {s field : String} (h : field ∈ fields '.' s) :
    isBare field = true := by
  obtain ⟨piece, hpiece, rfl⟩ := List.mem_map.mp h
  rw [isBare, String.toList_ofList, bne_iff_ne]
  exact fun hhead => not_mem_of_mem_split hpiece (List.mem_of_head? hhead)

theorem dropDot_of_isBare {s : String} (h : isBare s = true) : dropDot s = s := by
  rw [isBare, bne_iff_ne] at h
  rw [dropDot]
  split
  · rename_i rest hlist
    rw [hlist] at h
    exact absurd rfl h
  · rfl

end Text
end Polyglot
