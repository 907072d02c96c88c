/-
Lower-casing and ASCII.

A text of ASCII is lowered letter by letter (`lowercaseFrom_of_ascii`).  Of all other characters two
have ASCII in their forms: the capital I with a dot, which gives a small i and a mark, and the sign
of the kelvin, which gives a small k.  So what is lowered to ASCII without a `k` was ASCII before
(`ascii_of_lowercaseFrom`), and a text is lowered to a small word of that kind just if it has the
letters of that word (`lowercase_eq_iff`).
-/
import Mathlib.Data.List.Forall2
import Polyglot.Text.Lowercase

namespace Polyglot
namespace Text

/-! ## The table of shifts -/

namespace Shift

theorem bounds_of_moves {s : Shift} {n : Nat} (h : s.moves n = true) :
    s.first ≤ n ∧ n ≤ s.last := by
  rw [moves, Bool.and_eq_true, Bool.and_eq_true, decide_eq_true_eq, decide_eq_true_eq] at h
  exact h.1

/-- All images are characters, and none is in ASCII. -/
def LandsBeyond (s : Shift) : Prop :=
  0x80 ≤ s.image ∧ (s.apply s.last < 0xD800 ∨ 0xDFFF < s.image ∧ s.apply s.last < 0x110000)

instance (s : Shift) : Decidable s.LandsBeyond := inferInstanceAs (Decidable (_ ∧ _))

theorem LandsBeyond.le_toNat {s : Shift} (h : s.LandsBeyond) {n : Nat} (hn : s.moves n = true) :
    0x80 ≤ (Char.ofNat (s.apply n)).toNat := by
  obtain ⟨hfirst, hlast⟩ := bounds_of_moves hn
  obtain ⟨himage, hchars⟩ := h
  rw [apply] at hchars
  have hvalid : (s.apply n).isValidChar := by
    rw [apply, Nat.isValidChar]
    omega
  have hchar : (Char.ofNat (s.apply n)).toNat = s.apply n := by
    rw [Char.ofNat, dif_pos hvalid]
    rfl
  rw [hchar, apply]
  omega

end Shift

/-- A row is about ASCII, or it is the sign of the kelvin, or it stays beyond ASCII. -/
theorem lowercaseShifts_rows : ∀ s ∈ lowercaseShifts,
    s.last < 0x80 ∨ s.first = 0x212A ∧ s.last = 0x212A ∨ s.LandsBeyond := by
  decide +kernel

/-! ## One character -/

section Form

variable {before after : List Char} {c : Char}

theorem lowercaseChar_of_ascii (h : c.toNat < 0x80) : lowercaseChar c = [c.toLower] := by
  have hall : ∀ n < 0x80, lowercaseChar (Char.ofNat n) = [(Char.ofNat n).toLower] := by
    decide +kernel
  have hc := hall c.toNat h
  rwa [Char.ofNat_toNat] at hc

theorem lowercaseChar_beyond (h : 0x80 ≤ c.toNat) (hdot : c.toNat ≠ 0x130)
    (hkelvin : c.toNat ≠ 0x212A) : ∃ d, lowercaseChar c = [d] ∧ 0x80 ≤ d.toNat := by
  rw [lowercaseChar, if_neg hdot]
  cases hfind : lowercaseShifts.find? (·.moves c.toNat) with
  | none => exact ⟨c, rfl, h⟩
  | some s =>
      have hmoves : s.moves c.toNat = true := by simpa using List.find?_some hfind
      have hbounds := Shift.bounds_of_moves hmoves
      refine ⟨_, rfl, ?_⟩
      -- A row that moves `c` neither ends in ASCII nor is the row of the kelvin.
      rcases lowercaseShifts_rows s (List.mem_of_find?_eq_some hfind) with hascii | hsign | hlands
      · omega
      · omega
      · exact hlands.le_toNat hmoves

theorem lowercaseAt_of_ne (h : c.toNat ≠ 0x3A3) : lowercaseAt before c after = lowercaseChar c := by
  rw [lowercaseAt, if_neg h]

theorem lowercaseAt_of_ascii (h : c.toNat < 0x80) : lowercaseAt before c after = [c.toLower] := by
  rw [lowercaseAt_of_ne (by omega), lowercaseChar_of_ascii h]

theorem lowercaseAt_dotted (h : c.toNat = 0x130) :
    lowercaseAt before c after = ['i', Char.ofNat 0x307] := by
  rw [lowercaseAt_of_ne (by omega), lowercaseChar, if_pos h]

theorem lowercaseAt_kelvin (h : c.toNat = 0x212A) : lowercaseAt before c after = ['k'] := by
  rw [lowercaseAt_of_ne (by omega), ← Char.ofNat_toNat c, h]
  decide +kernel

theorem lowercaseAt_beyond (before after : List Char) (h : 0x80 ≤ c.toNat)
    (hdot : c.toNat ≠ 0x130) (hkelvin : c.toNat ≠ 0x212A) :
    ∃ d, lowercaseAt before c after = [d] ∧ 0x80 ≤ d.toNat := by
  by_cases hsigma : c.toNat = 0x3A3
  · rw [lowercaseAt, if_pos hsigma]
    refine ⟨_, rfl, ?_⟩
    split <;> decide
  · rw [lowercaseAt_of_ne hsigma]
    exact lowercaseChar_beyond h hdot hkelvin

/-- Two characters beyond ASCII have a form with ASCII in it. -/
theorem exists_ascii_mem_lowercaseAt_iff (h : 0x80 ≤ c.toNat) :
    (∃ d ∈ lowercaseAt before c after, d.toNat < 0x80) ↔ c.toNat = 0x130 ∨ c.toNat = 0x212A := by
  constructor
  · rintro ⟨d, hd, hascii⟩
    by_contra hno
    rw [not_or] at hno
    obtain ⟨e, hform, he⟩ := lowercaseAt_beyond before after h hno.1 hno.2
    rw [hform, List.mem_singleton] at hd
    rw [hd] at hascii
    omega
  · rintro (hdot | hkelvin)
    · exact ⟨'i', by simp [lowercaseAt_dotted hdot], by decide⟩
    · exact ⟨'k', by simp [lowercaseAt_kelvin hkelvin], by decide⟩

/-- One character has a form of several. -/
theorem length_lowercaseAt_ne_one_iff :
    (lowercaseAt before c after).length ≠ 1 ↔ c.toNat = 0x130 := by
  by_cases hdot : c.toNat = 0x130
  · rw [lowercaseAt_dotted hdot]
    simp [hdot]
  · refine iff_of_false (not_not_intro ?_) hdot
    by_cases hascii : c.toNat < 0x80
    · rw [lowercaseAt_of_ascii hascii, List.length_singleton]
    · by_cases hkelvin : c.toNat = 0x212A
      · rw [lowercaseAt_kelvin hkelvin, List.length_singleton]
      · obtain ⟨d, hform, -⟩ :=
          lowercaseAt_beyond before after (Nat.not_lt.mp hascii) hdot hkelvin
        rw [hform, List.length_singleton]

/-- A character beyond ASCII leaves a trace: something beyond ASCII, or a `k`. -/
theorem exists_mem_lowercaseAt (before after : List Char) (h : 0x80 ≤ c.toNat) :
    ∃ d ∈ lowercaseAt before c after, 0x80 ≤ d.toNat ∨ d = 'k' := by
  by_cases hdot : c.toNat = 0x130
  · -- The small i would pass; the mark behind it does not.
    exact ⟨Char.ofNat 0x307, by simp [lowercaseAt_dotted hdot], .inl (by decide)⟩
  · by_cases hkelvin : c.toNat = 0x212A
    · exact ⟨'k', by simp [lowercaseAt_kelvin hkelvin], .inr rfl⟩
    · obtain ⟨d, hform, hd⟩ := lowercaseAt_beyond before after h hdot hkelvin
      exact ⟨d, by simp [hform], .inl hd⟩

end Form

/-! ## Whole texts

What stands in front of a character changes at every step, so both inductions are on the text with
any characters in front of it. -/

theorem lowercaseFrom_of_ascii {s : List Char} (h : ∀ c ∈ s, c.toNat < 0x80)
    (before : List Char) : lowercaseFrom before s = s.map Char.toLower := by
  induction s generalizing before with
  | nil => rfl
  | cons c rest ih =>
      have hc : c.toNat < 0x80 := h c List.mem_cons_self
      have hrest := ih (fun d hd => h d (List.mem_cons_of_mem c hd)) (c :: before)
      rw [lowercaseFrom, lowercaseAt_of_ascii hc, hrest]
      rfl

theorem ascii_of_lowercaseFrom {s before : List Char}
    (h : ∀ d ∈ lowercaseFrom before s, d.toNat < 0x80 ∧ d ≠ 'k') : ∀ c ∈ s, c.toNat < 0x80 := by
  induction s generalizing before with
  | nil => simp
  | cons c rest ih =>
      rw [lowercaseFrom] at h
      intro e he
      rcases List.mem_cons.mp he with rfl | he
      · by_contra hbeyond
        obtain ⟨d, hd, htrace⟩ := exists_mem_lowercaseAt before rest (Nat.not_lt.mp hbeyond)
        have hplain := h d (List.mem_append_left _ hd)
        rcases htrace with hd | rfl
        · omega
        · exact hplain.2 rfl
      · exact ih (fun d hd => h d (List.mem_append_right _ hd)) e he

/-! ## Letters up to case -/

/-- Texts of one length that are equal but for the case of ASCII letters, the only letters that
`Char.toLower` changes. -/
structure SameLetters (s t : String) : Prop where
  length_eq : s.length = t.length
  letters : ∀ pair ∈ s.toList.zip t.toList, pair.1.toLower = pair.2.toLower

theorem sameLetters_iff {s t : String} :
    SameLetters s t ↔ s.toList.map Char.toLower = t.toList.map Char.toLower := by
  rw [← List.forall₂_eq_eq_eq, List.forall₂_map_left_iff, List.forall₂_map_right_iff,
    List.forall₂_iff_zip]
  constructor
  · intro h
    exact ⟨h.length_eq, fun hpair => h.letters _ hpair⟩
  · rintro ⟨hlength, hletters⟩
    exact ⟨hlength, fun pair hpair => hletters hpair⟩

theorem toLower_of_beyond {c : Char} (h : 0x80 ≤ c.toNat) : c.toLower = c := by
  have hno : ¬(c.val ≥ 'A'.val ∧ c.val ≤ 'Z'.val) := by
    rintro ⟨-, hle⟩
    have hbound : c.toNat ≤ 0x5A := UInt32.le_iff_toNat_le.mp hle
    omega
  exact dif_neg hno

/-! ## Words that can be told by their letters -/

/-- A word of ASCII without capital letters and without `k`. -/
def isPlain (word : String) : Bool :=
  word.toList.all fun c => decide (c.toNat < 0x80) && c != 'k' && c.toLower == c

section Plain

variable {s word : String}

theorem isPlain_iff : isPlain word = true ↔
    ∀ c ∈ word.toList, (c.toNat < 0x80 ∧ c ≠ 'k') ∧ c.toLower = c := by
  simp [isPlain]

theorem sameLetters_iff_of_isPlain (hword : isPlain word = true) :
    SameLetters s word ↔ s.toList.map Char.toLower = word.toList := by
  have hlowered : word.toList.map Char.toLower = word.toList.map id :=
    List.map_congr_left fun c hc => (isPlain_iff.mp hword c hc).2
  rw [sameLetters_iff, hlowered, List.map_id]

theorem ascii_of_sameLetters (hword : isPlain word = true) (h : SameLetters s word) :
    ∀ c ∈ s.toList, c.toNat < 0x80 := by
  rw [sameLetters_iff_of_isPlain hword] at h
  intro c hc
  by_contra hbeyond
  have hmem : c.toLower ∈ word.toList := h ▸ List.mem_map_of_mem hc
  rw [toLower_of_beyond (Nat.not_lt.mp hbeyond)] at hmem
  exact hbeyond (isPlain_iff.mp hword c hmem).1.1

theorem lowercase_eq_iff (hword : isPlain word = true) :
    lowercase s = word ↔ SameLetters s word := by
  rw [lowercase, ← String.toList_inj, String.toList_ofList]
  constructor
  · intro h
    have hascii : ∀ c ∈ s.toList, c.toNat < 0x80 := by
      have hplain := fun c hc => (isPlain_iff.mp hword c hc).1
      rw [← h] at hplain
      exact ascii_of_lowercaseFrom hplain
    rw [lowercaseFrom_of_ascii hascii] at h
    exact (sameLetters_iff_of_isPlain hword).mpr h
  · intro h
    rw [lowercaseFrom_of_ascii (ascii_of_sameLetters hword h)]
    exact (sameLetters_iff_of_isPlain hword).mp h

end Plain

end Text
end Polyglot
