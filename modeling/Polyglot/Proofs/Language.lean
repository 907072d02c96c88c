/-
Which texts a language is known by.

The names are small letters of ASCII, and none has a `k`.  So lower-casing, which is defined for the
whole of Unicode, lets no other character pass for one of their letters: a language is known by its
name in any case of the letters, with any blanks around it, and by nothing else
(`ofName?_eq_some_iff`).
-/
import Polyglot.Language
import Polyglot.Proofs.Text.Blank
import Polyglot.Proofs.Text.Lowercase

namespace Polyglot
namespace Language

variable {s : String} {l m : Language}

theorem isPlain_name (l : Language) : Text.isPlain l.name = true := by
  cases l <;> decide

theorem find?_name (l : Language) : all.find? (·.name == l.name) = some l := by
  cases l <;> decide

theorem name_injective (h : l.name = m.name) : l = m := by
  have hfind := find?_name l
  rw [h, find?_name m, Option.some.injEq] at hfind
  exact hfind.symm

theorem ofName?_eq_some_iff_lowercase :
    ofName? s = some l ↔ Text.lowercase (Text.strip s) = l.name := by
  rw [ofName?]
  constructor
  · intro h
    have hname := List.find?_some h
    exact (beq_iff_eq.mp hname).symm
  · intro h
    rw [h]
    exact find?_name l

theorem ofName?_eq_some_iff : ofName? s = some l ↔ Text.SameLetters (Text.strip s) l.name := by
  rw [ofName?_eq_some_iff_lowercase, Text.lowercase_eq_iff (isPlain_name l)]

theorem ofName?_eq_none_of_beyond {c : Char} (hmem : c ∈ (Text.strip s).toList)
    (hbeyond : 0x80 ≤ c.toNat) : ofName? s = none := by
  rw [Option.eq_none_iff_forall_ne_some]
  intro l h
  have hascii := Text.ascii_of_sameLetters (isPlain_name l) (ofName?_eq_some_iff.mp h) c hmem
  omega

theorem eq_of_sameLetters {word : String} (hl : Text.SameLetters word l.name)
    (hm : Text.SameLetters word m.name) : l = m := by
  rw [Text.sameLetters_iff_of_isPlain (isPlain_name l)] at hl
  rw [Text.sameLetters_iff_of_isPlain (isPlain_name m), hl, String.toList_inj] at hm
  exact name_injective hm

/-- A language is known by a text just if what stands between the blanks at its ends has the length
of the name and is equal to it but for the case of ASCII letters.  Nothing with a character beyond
ASCII left is the name of a language, and nothing is the name of two, although two characters beyond
ASCII have ASCII in their lower-case form, wherever they stand, and one of them has a form of more
than one character. -/
theorem named_by_letters :
    (∀ s l, ofName? s = some l ↔ Text.SameLetters (Text.strip s) l.name) ∧
    (∀ s word, Text.strip s = word ↔ Text.isTrimmed word = true ∧ Text.StandsIn word s) ∧
    (∀ s, (∃ c ∈ (Text.strip s).toList, 0x80 ≤ c.toNat) → ofName? s = none) ∧
    (∀ word (l m : Language),
      Text.SameLetters word l.name → Text.SameLetters word m.name → l = m) ∧
    ∀ before c after,
      (0x80 ≤ c.toNat →
        ((∃ d ∈ Text.lowercaseAt before c after, d.toNat < 0x80) ↔
          c.toNat = 0x130 ∨ c.toNat = 0x212A)) ∧
      ((Text.lowercaseAt before c after).length ≠ 1 ↔ c.toNat = 0x130) := by
  refine ⟨?_, ?_, ?_, ?_, ?_⟩
  · intro s l
    exact ofName?_eq_some_iff
  · intro s word
    exact Text.strip_eq_iff
  · rintro s ⟨c, hmem, hbeyond⟩
    exact ofName?_eq_none_of_beyond hmem hbeyond
  · intro word l m hl hm
    exact eq_of_sameLetters hl hm
  · intro before c after
    exact ⟨Text.exists_ascii_mem_lowercaseAt_iff, Text.length_lowercaseAt_ne_one_iff⟩

/-- Wide and narrow blanks around a name in mixed case; a dotted capital in the place of an i; the
sign of the kelvin, which turns into a k before a capital sigma. -/
theorem named_by_letters_sample :
    ofName? "\u3000\tTypeScript\n" = some .typescript ∧
      ofName? "TYPESCR\u0130PT" = none ∧
      (∀ l : Language, Text.SameLetters "Jsx" l.name → l = .jsx) ∧
      ∃ d ∈ Text.lowercaseAt [] '\u212A' ['\u03A3'], d.toNat < 0x80 := by
  obtain ⟨hletters, hstrip, hbeyond, hone, hform⟩ := named_by_letters
  have hword : Text.strip "\u3000\tTypeScript\n" = "TypeScript" :=
    (hstrip _ _).mpr ⟨by decide +kernel, "\u3000\t", "\n", by decide, by decide, by decide⟩
  have hsame : Text.SameLetters "TypeScript" (name .typescript) :=
    Text.sameLetters_iff.mpr (by decide)
  have hjsx : Text.SameLetters "Jsx" (name .jsx) := Text.sameLetters_iff.mpr (by decide)
  refine ⟨?_, ?_, ?_, ?_⟩
  · rw [hletters, hword]
    exact hsame
  · exact hbeyond _ ⟨'\u0130', by decide +kernel, by decide⟩
  · intro l hl
    exact hone "Jsx" l .jsx hl hjsx
  · exact ((hform [] '\u212A' ['\u03A3']).1 (by decide)).mpr (.inr (by decide))

end Language
end Polyglot
