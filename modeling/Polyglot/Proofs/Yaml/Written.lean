/-
The characters of what is written.

Whatever a text holds, its written form holds visible characters only, and line breaks where a line
is folded or the text has a line feed in single quotes (`mem_scalar`).  All else stands as an
escape.  A document that is read back therefore never meets a character that is not allowed, a line
end of another kind or a byte order mark.
-/
import Mathlib.Algebra.Group.Nat.Defs
import Polyglot.Yaml.Writer

namespace Polyglot
namespace Yaml
namespace Writer

/-! ## Visible characters -/

section Visible

variable {c : Char}

theorem ne_of_isVisible (h : isVisible c = true) {d : Char} (hd : isVisible d = false) : c ≠ d := by
  intro heq
  rw [heq, hd] at h
  cases h

theorem isBreak_of_isVisible (h : isVisible c = true) : isBreak c = false := by
  have h1 : c ≠ '\n' := ne_of_isVisible h (by decide)
  have h2 : c ≠ '\x85' := ne_of_isVisible h (by decide)
  have h3 : c ≠ '\u2028' := ne_of_isVisible h (by decide)
  have h4 : c ≠ '\u2029' := ne_of_isVisible h (by decide)
  simp [isBreak, h1, h2, h3, h4]

theorem isSpace_of_isVisible (h : isVisible c = true) : isSpace c = decide (c = ' ') := by
  have htab : c ≠ '\t' := ne_of_isVisible h (by decide)
  simp [isSpace, htab]

theorem isGap_of_isVisible (h : isVisible c = true) : isGap c = decide (c = ' ') := by
  rw [isGap, isBreak_of_isVisible h, Bool.or_false, isSpace_of_isVisible h]

theorem isAllowed_of_isVisible (h : isVisible c = true) : isAllowed c = true := by
  rw [isVisible] at h
  simp [isAllowed, h]

end Visible

/-! ## Digits of a code -/

/-- The digit of a number below sixteen. -/
def hexChar (d : Nat) : Char := d.digitChar.toUpper

theorem isVisible_hexChar {d : Nat} (h : d < 16) : isVisible (hexChar d) = true := by
  revert d
  decide

theorem hexValue?_hexChar {d : Nat} (h : d < 16) : hexValue? (hexChar d) = some d := by
  revert d
  decide

/-- A number in sixteens, with zeros in front up to a width. -/
def code (width n : Nat) : List Char := (Text.hexDigits true width n).toList

theorem code_eq (width n : Nat) :
    code width n = List.replicate (width - (Nat.toDigits 16 n).length) '0' ++
      (Nat.toDigits 16 n).map Char.toUpper := by
  simp [code, Text.hexDigits]

theorem code_one {n : Nat} (h : n < 16) : code 1 n = [hexChar n] := by
  rw [code_eq, Nat.toDigits_of_lt_base h]
  rfl

/-- The last digit of a code counts for itself, and the others are the code of a sixteenth. -/
theorem code_succ (width n : Nat) :
    code (width + 2) n = code (width + 1) (n / 16) ++ [hexChar (n % 16)] := by
  rw [code_eq, code_eq]
  rcases Nat.lt_or_ge n 16 with hlt | hge
  · have hzero : n / 16 = 0 := Nat.div_eq_of_lt hlt
    rw [hzero, Nat.mod_eq_of_lt hlt, Nat.toDigits_of_lt_base hlt,
      Nat.toDigits_of_lt_base (by omega : 0 < 16)]
    simp [List.replicate_succ', hexChar, Nat.digitChar]
  · rw [Nat.toDigits_of_base_le (by omega) hge]
    simp [hexChar]

theorem mem_code {width n : Nat} {c : Char} (hn : n < 16 ^ (width + 1))
    (hc : c ∈ code (width + 1) n) : ∃ d, d < 16 ∧ c = hexChar d := by
  induction width generalizing n with
  | zero =>
      rw [code_one (by simpa using hn), List.mem_singleton] at hc
      exact ⟨n, by simpa using hn, hc⟩
  | succ width ih =>
      rw [code_succ, List.mem_append, List.mem_singleton] at hc
      rcases hc with hc | hc
      · exact ih (Nat.div_lt_of_lt_mul (by rw [Nat.pow_succ] at hn; omega)) hc
      · exact ⟨n % 16, Nat.mod_lt _ (by omega), hc⟩

/-- A character is not one of the codes that only halve a character. -/
theorem isValidChar_toNat (c : Char) : c.toNat < 0xD800 ∨ 0xDFFF < c.toNat ∧ c.toNat < 0x110000 :=
  c.valid

theorem toNat_lt (c : Char) : c.toNat < 0x110000 := by
  have h := isValidChar_toNat c
  omega

/-- How a character without a letter of its own is escaped. -/
inductive IsCode (c : Char) : List Char → Prop where
  | byte (h : c.toNat < 16 ^ 2) : IsCode c ('\\' :: 'x' :: code 2 c.toNat)
  | short (h : c.toNat < 16 ^ 4) : IsCode c ('\\' :: 'u' :: code 4 c.toNat)
  | long (h : c.toNat < 16 ^ 8) : IsCode c ('\\' :: 'U' :: code 8 c.toNat)

/-- An escape is a letter behind a backslash or a code, and a character without one is visible. -/
theorem escape?_cases (c : Char) :
    (∃ letter, letter? c = some letter ∧ escape? c = some ['\\', letter]) ∨
      (∃ escape, escape? c = some escape ∧ IsCode c escape) ∨
      (escape? c = none ∧ letter? c = none ∧ isVisible c = true) := by
  cases hletter : letter? c with
  | some letter => exact .inl ⟨letter, rfl, by simp [escape?, hletter]⟩
  | none =>
      refine .inr ?_
      by_cases hvisible : isVisible c = true
      · exact .inr ⟨by simp [escape?, hletter, hvisible], rfl, hvisible⟩
      · refine .inl ?_
        have hbound : c.toNat < 0x110000 := toNat_lt c
        by_cases hbyte : c.toNat ≤ 0xFF
        · refine ⟨_, ?_, .byte (by omega)⟩
          simp [escape?, hletter, hvisible, hbyte, code]
        · by_cases hshort : c.toNat ≤ 0xFFFF
          · refine ⟨_, ?_, .short (by omega)⟩
            simp [escape?, hletter, hvisible, hbyte, hshort, code]
          · refine ⟨_, ?_, .long (by omega)⟩
            simp [escape?, hletter, hvisible, hbyte, hshort, code]

theorem letter?_of_escape?_eq_none {c : Char} (h : escape? c = none) :
    letter? c = none ∧ isVisible c = true := by
  rcases escape?_cases c with ⟨letter, -, hescape⟩ | ⟨escape, hescape, -⟩ | ⟨-, hvisible⟩
  · rw [h] at hescape
    cases hescape
  · rw [h] at hescape
    cases hescape
  · exact hvisible

theorem isVisible_letter {c letter : Char} (h : letter? c = some letter) :
    isVisible letter = true := by
  obtain ⟨before, after, htable, -⟩ := List.lookup_eq_some_iff.mp h
  have hall : ∀ pair ∈ before ++ (c, letter) :: after, isVisible pair.2 = true := by
    rw [← htable]
    decide
  exact hall _ (List.mem_append_right _ List.mem_cons_self)

theorem isVisible_of_mem_escape {c d : Char} {escape : List Char} (h : escape? c = some escape)
    (hd : d ∈ escape) : isVisible d = true := by
  have hcode {width : Nat} (hn : c.toNat < 16 ^ (width + 1))
      (hd : d ∈ code (width + 1) c.toNat) : isVisible d = true := by
    obtain ⟨digit, hdigit, rfl⟩ := mem_code hn hd
    exact isVisible_hexChar hdigit
  rcases escape?_cases c with ⟨letter, hletter, hescape⟩ | ⟨escape', hescape, hiscode⟩ | ⟨hnone, -⟩
  · rw [h, Option.some.injEq] at hescape
    simp only [hescape, List.mem_cons, List.not_mem_nil, or_false] at hd
    rcases hd with rfl | rfl
    · decide
    · exact isVisible_letter hletter
  · rw [h, Option.some.injEq] at hescape
    subst hescape
    cases hiscode with
    | byte hn | short hn | long hn =>
        simp only [List.mem_cons] at hd
        rcases hd with rfl | rfl | hd
        · decide
        · decide
        · exact hcode hn hd
  · rw [h] at hnone
    cases hnone

/-! ## The three styles -/

theorem mem_newline {indent : Nat} {c : Char} (h : c ∈ newline indent) :
    isVisible c = true ∨ c = '\n' := by
  rw [newline, List.mem_cons] at h
  rcases h with rfl | h
  · exact .inr rfl
  · rw [List.eq_of_mem_replicate h]
    exact .inl rfl

/-- Lines are folded only where they may be. -/
theorem foldsAt_eq_some {fold : Fold} {afterSpace : Bool} {column indent : Nat}
    {rest : List Char} (h : foldsAt fold afterSpace column rest = some indent) :
    fold = some indent ∧ afterSpace = false ∧ rest.head? ≠ some ' ' ∧ width < column := by
  unfold foldsAt at h
  split at h
  · rename_i indent'
    split at h
    · rename_i hcond
      simp only [Bool.and_eq_true, Bool.not_eq_true', decide_eq_true_eq] at hcond
      rw [Option.some.injEq] at h
      exact ⟨congrArg some h, hcond.1.1, hcond.1.2, hcond.2⟩
    · cases h
  · cases h

theorem mem_plain {fold : Fold} {afterSpace : Bool} {column : Nat} {s : List Char}
    (hs : ∀ c ∈ s, isVisible c = true) {d : Char} (hd : d ∈ plain fold afterSpace column s) :
    isVisible d = true ∨ (d = '\n' ∧ fold.isSome = true) := by
  induction s generalizing afterSpace column with
  | nil => cases hd
  | cons c rest ih =>
      obtain ⟨hc, hrest⟩ := List.forall_mem_cons.mp hs
      rw [plain] at hd
      split at hd
      · rename_i indent hfold
        rw [List.mem_append] at hd
        rcases hd with hd | hd
        · rw [(foldsAt_eq_some (Option.ite_none_right_eq_some.mp hfold).2).1]
          exact (mem_newline hd).imp id fun h => ⟨h, rfl⟩
        · exact ih hrest hd
      · rw [List.mem_cons] at hd
        rcases hd with rfl | hd
        · exact .inl hc
        · exact ih hrest hd

theorem mem_single {fold : Fold} {first afterSpace afterBreak : Bool} {column : Nat}
    {s : List Char} (hs : ∀ c ∈ s, isVisible c = true ∨ c = '\n') {d : Char}
    (hd : d ∈ single fold first afterSpace afterBreak column s) :
    isVisible d = true ∨ (d = '\n' ∧ (fold.isSome = true ∨ '\n' ∈ s)) := by
  induction s generalizing first afterSpace afterBreak column with
  | nil => cases hd
  | cons c rest ih =>
      obtain ⟨hc, hrest⟩ := List.forall_mem_cons.mp hs
      have hlift {first afterSpace afterBreak : Bool} {column : Nat}
          (hd : d ∈ single fold first afterSpace afterBreak column rest) :
          isVisible d = true ∨ (d = '\n' ∧ (fold.isSome = true ∨ '\n' ∈ c :: rest)) :=
        (ih hrest hd).imp id fun h => ⟨h.1, h.2.imp id (List.mem_cons_of_mem c)⟩
      rw [single] at hd
      split at hd
      · rename_i hbreak
        have hnew {breaks : List Char} (hbreaks : breaks = ['\n'] ∨ breaks = ['\n', '\n'])
            (hmem : d ∈ breaks) :
            isVisible d = true ∨ (d = '\n' ∧ (fold.isSome = true ∨ '\n' ∈ c :: rest)) := by
          refine .inr ⟨?_, .inr (hbreak ▸ List.mem_cons_self)⟩
          rcases hbreaks with rfl | rfl <;> simpa using hmem
        have hbreaks : (if afterBreak = true then ['\n'] else ['\n', '\n']) = ['\n'] ∨
            (if afterBreak = true then ['\n'] else ['\n', '\n']) = ['\n', '\n'] := by
          cases afterBreak
          · exact .inr rfl
          · exact .inl rfl
        dsimp only at hd
        split at hd
        · rw [List.mem_append] at hd
          exact hd.elim (hnew hbreaks) hlift
        · rw [List.mem_append, List.mem_append] at hd
          rcases hd with (hd | hd) | hd
          · exact hnew hbreaks hd
          · rw [List.eq_of_mem_replicate hd]
            exact .inl rfl
          · exact hlift hd
      · rename_i hbreak
        have hvisible : isVisible c = true := hc.resolve_right hbreak
        split at hd
        · simp only [List.mem_cons] at hd
          rcases hd with rfl | rfl | hd
          · exact .inl hvisible
          · exact .inl hvisible
          · exact hlift hd
        · dsimp only at hd
          split at hd
          · rename_i indent hfold
            rw [List.mem_append] at hd
            rcases hd with hd | hd
            · rw [(foldsAt_eq_some (Option.ite_none_right_eq_some.mp hfold).2).1]
              exact (mem_newline hd).imp id fun h => ⟨h, .inl rfl⟩
            · exact hlift hd
          · rw [List.mem_cons] at hd
            rcases hd with rfl | hd
            · exact .inl hvisible
            · exact hlift hd

theorem mem_double {fold : Fold} {first afterEscape : Bool} {column : Nat} {s : List Char}
    {d : Char} (hd : d ∈ double fold first afterEscape column s) :
    isVisible d = true ∨ (d = '\n' ∧ fold.isSome = true) := by
  induction s generalizing first afterEscape column with
  | nil => cases hd
  | cons c rest ih =>
      have hguard {guarded : Prop} [Decidable guarded]
          (hd : d ∈ if guarded then ['\\'] else []) : isVisible d = true := by
        split at hd
        · rw [List.mem_singleton.mp hd]
          decide
        · cases hd
      rw [double] at hd
      dsimp only at hd
      split at hd
      · rename_i escape hescape
        split at hd
        · rename_i indent hfold
          have hsome : fold = some indent := (Option.ite_none_right_eq_some.mp hfold).2
          rw [hsome]
          simp only [List.mem_append, List.mem_cons] at hd
          rcases hd with ((hd | rfl | hd) | hd) | hd
          · exact .inl (isVisible_of_mem_escape hescape hd)
          · exact .inl (by decide)
          · exact (mem_newline hd).imp id fun h => ⟨h, rfl⟩
          · exact .inl (hguard hd)
          · exact hsome ▸ ih hd
        · rw [List.mem_append] at hd
          rcases hd with hd | hd
          · exact .inl (isVisible_of_mem_escape hescape hd)
          · exact ih hd
      · rename_i hnone
        have hvisible : isVisible c = true := (letter?_of_escape?_eq_none hnone).2
        split at hd
        · rename_i indent hfold
          have hsome : fold = some indent := (Option.ite_none_right_eq_some.mp hfold).2
          rw [hsome]
          simp only [List.mem_append, List.mem_cons] at hd
          rcases hd with ((rfl | hd) | hd) | rfl | hd
          · exact .inl (by decide)
          · exact (mem_newline hd).imp id fun h => ⟨h, rfl⟩
          · exact .inl (hguard hd)
          · exact .inl hvisible
          · exact hsome ▸ ih hd
        · rw [List.mem_cons] at hd
          rcases hd with rfl | hd
          · exact .inl hvisible
          · exact ih hd

/-! ## The style of a text -/

theorem style_plain {s : String} (h : style s = .plain) :
    allowsPlain s.toList = true ∧ Tag.ofPlain s = .str := by
  rw [style] at h
  split at h
  · rename_i hplain
    simpa using hplain
  · split at h <;> cases h

theorem style_single {s : String} (h : style s = .single) : allowsSingle s.toList = true := by
  rw [style] at h
  split at h
  · cases h
  · split at h
    · assumption
    · cases h

theorem isVisible_of_allowsPlain {s : List Char} (h : allowsPlain s = true) :
    ∀ c ∈ s, isVisible c = true := by
  cases s with
  | nil => cases h
  | cons c rest =>
      simp only [allowsPlain, Bool.and_eq_true] at h
      exact List.all_eq_true.mp h.1.1.1.1.1.1

theorem isVisible_of_allowsSingle {s : List Char} (h : allowsSingle s = true) :
    ∀ c ∈ s, isVisible c = true ∨ c = '\n' := by
  rw [allowsSingle, Bool.and_eq_true, List.all_eq_true] at h
  intro c hc
  simpa using h.1 c hc

/-- A scalar is written in visible characters.  Without folds it has no line break, unless its text
has a line feed. -/
theorem mem_scalar {fold : Fold} {column : Nat} {s : String} {d : Char}
    (hd : d ∈ scalar fold column s) :
    isVisible d = true ∨ (d = '\n' ∧ (fold.isSome = true ∨ '\n' ∈ s.toList)) := by
  have hquote {q : Char} {inner : List Char} (hq : isVisible q = true)
      (hinner : d ∈ inner →
        isVisible d = true ∨ (d = '\n' ∧ (fold.isSome = true ∨ '\n' ∈ s.toList)))
      (hd : d ∈ q :: inner ++ [q]) :
      isVisible d = true ∨ (d = '\n' ∧ (fold.isSome = true ∨ '\n' ∈ s.toList)) := by
    simp only [List.cons_append, List.mem_cons, List.mem_append, List.not_mem_nil, or_false] at hd
    rcases hd with rfl | hd | rfl
    · exact .inl hq
    · exact hinner hd
    · exact .inl hq
  rw [scalar] at hd
  split at hd
  · rename_i hstyle
    have hs := isVisible_of_allowsPlain (style_plain hstyle).1
    exact (mem_plain hs hd).imp id fun h => ⟨h.1, .inl h.2⟩
  · rename_i hstyle
    exact hquote (by decide) (mem_single (isVisible_of_allowsSingle (style_single hstyle))) hd
  · exact hquote (by decide) (fun hd => (mem_double hd).imp id fun h => ⟨h.1, .inl h.2⟩) hd

end Writer
end Yaml
end Polyglot
