/-
Scalars in quotes read back.

The reader holds a gap back until it knows how the gap ends, so its state stands for more than what
it has read: for `(gap.text ++ read).reverse`.  The statements below keep that sum: what was read,
with the gap, and what is still to be written make up the text (`scan_single`, `scan_double`).

`Awaits` and `Resumes` say which gaps can be open at which point of the writer's work.  In single
quotes a fold stands for one space and may therefore meet no other, and line feeds are written with
one more in front; in double quotes a fold stands for nothing, and a space behind it is escaped.
-/
import Polyglot.Proofs.Yaml.Written
import Polyglot.Yaml.Token.Quoted

namespace Polyglot
namespace Yaml

open Writer

/-- A line that opens with another character divides nothing. -/
theorem atDivider_of_head {c : Char} (hdash : c ≠ '-') (hdot : c ≠ '.') (rest : List Char) :
    atDivider (c :: rest) = false := by
  rw [atDivider, Bool.or_eq_false_iff]
  constructor <;> simp only [isDivider] <;> split <;> simp_all

theorem atDivider_margin {k : Nat} (hk : 0 < k) (rest : List Char) :
    atDivider (List.replicate k ' ' ++ rest) = false := by
  obtain ⟨k, rfl⟩ := Nat.exists_eq_succ_of_ne_zero (Nat.ne_of_gt hk)
  exact atDivider_of_head (by decide) (by decide) _

namespace Quoted

variable {double : Bool} {gap : Gap} {read rest : List Char}

/-! ## One character -/

theorem scan_space :
    scan double (.text gap) read (' ' :: rest) =
      scan double (.text (gap.addSpace ' ')) read rest := by
  rw [scan]
  simp [isSpace]

theorem scan_newline (h : atDivider rest = false) :
    scan double (.text gap) read ('\n' :: rest) =
      scan double (.text (gap.addBreak '\n')) read rest := by
  rw [scan]
  simp [isSpace, isBreak, h]

/-- A character that stands for itself ends the gap before it. -/
theorem scan_char {c : Char} (hvisible : isVisible c = true) (hspace : c ≠ ' ')
    (hsingle : double = false → c ≠ '\x27') (hdouble : double = true → c ≠ '"' ∧ c ≠ '\\') :
    scan double (.text gap) read (c :: rest) =
      scan double (.text .none) (c :: (gap.text ++ read)) rest := by
  rw [scan]
  simp only [isSpace_of_isVisible hvisible, hspace, isBreak_of_isVisible hvisible, decide_false,
    Bool.false_eq_true, if_false]
  cases double with
  | true => simp [hdouble rfl]
  | false => simp [hsingle rfl]

theorem scan_backslash :
    scan true (.text gap) read ('\\' :: rest) = scan true .escape (gap.text ++ read) rest := by
  rw [scan]
  simp [isSpace, isBreak]

/-- After a line break the blanks in front of the next line do not count. -/
theorem scan_margin (h : gap.addSpace ' ' = gap) (k : Nat) :
    scan double (.text gap) read (List.replicate k ' ' ++ rest) =
      scan double (.text gap) read rest := by
  induction k with
  | zero => rfl
  | succ k ih =>
      show scan double (.text gap) read (' ' :: (List.replicate k ' ' ++ rest)) = _
      rw [scan_space, h, ih]

/-- A line break with the indentation of the next line. -/
theorem scan_indent {k : Nat} (hk : 0 < k) :
    scan double (.text gap) read ('\n' :: (List.replicate k ' ' ++ rest)) =
      scan double (.text (gap.addBreak '\n')) read rest := by
  rw [scan_newline (atDivider_margin hk rest), scan_margin]
  cases gap <;> rfl

/-- A line break behind a backslash joins the lines without a blank. -/
theorem scan_join {k : Nat} (hk : 0 < k) :
    scan true (.text gap) read ('\\' :: '\n' :: (List.replicate k ' ' ++ rest)) =
      scan true (.text (.joined [])) (gap.text ++ read) rest := by
  have hnamed : named? '\n' = none := by decide
  have hlength : codeLength? '\n' = none := by decide
  rw [scan_backslash, scan]
  simp only [hnamed, hlength, atDivider_margin hk rest]
  rw [if_pos (by decide), scan_margin rfl]

/-! ## Escapes -/

theorem scan_code_digit {d left value : Nat} (hd : d < 16) :
    scan double (.code (left + 2) value) read (hexChar d :: rest) =
      scan double (.code (left + 1) (value * 16 + d)) read rest := by
  rw [scan]
  simp [hexValue?_hexChar hd]

theorem scan_code {width n left value : Nat} (hn : n < 16 ^ (width + 1)) :
    scan double (.code (width + 1 + (left + 1)) value) read (code (width + 1) n ++ rest) =
      scan double (.code (left + 1) (value * 16 ^ (width + 1) + n)) read rest := by
  induction width generalizing n left rest with
  | zero =>
      have hlt : n < 16 := by simpa using hn
      rw [code_one hlt, show 0 + 1 + (left + 1) = left + 2 by omega]
      exact scan_code_digit hlt
  | succ width ih =>
      have hdiv : n / 16 < 16 ^ (width + 1) :=
        Nat.div_lt_of_lt_mul (by rw [Nat.pow_succ] at hn; omega)
      rw [code_succ, List.append_assoc,
        show width + 1 + 1 + (left + 1) = width + 1 + (left + 1 + 1) by omega, ih hdiv]
      rw [List.singleton_append, scan_code_digit (Nat.mod_lt _ (by omega))]
      have hvalue : (value * 16 ^ (width + 1) + n / 16) * 16 + n % 16 =
          value * 16 ^ (width + 1 + 1) + n := by
        rw [Nat.add_mul, Nat.mul_assoc, Nat.pow_succ 16 (width + 1)]
        omega
      rw [hvalue]

theorem ofCode_toNat (c : Char) : ofCode c.toNat = .ok c := by
  have hvalid := isValidChar_toNat c
  have hlarge : ¬ 0x7FFFFFFF < c.toNat := by omega
  have hrange : ¬ 0x10FFFF < c.toNat := by omega
  have hhalf : (decide (0xD800 ≤ c.toNat) && decide (c.toNat < 0xE000)) = false := by
    rw [Bool.and_eq_false_iff, decide_eq_false_iff_not, decide_eq_false_iff_not]
    omega
  rw [ofCode, if_neg hlarge, if_neg hrange, hhalf, if_neg Bool.false_ne_true, Char.ofNat_toNat]

/-- The code of a character stands for it. -/
theorem scan_code_toNat {width : Nat} {c : Char} (hc : c.toNat < 16 ^ (width + 2)) :
    scan true (.code (width + 2) 0) read (code (width + 2) c.toNat ++ rest) =
      scan true (.text .none) (c :: read) rest := by
  have hdiv : c.toNat / 16 < 16 ^ (width + 1) :=
    Nat.div_lt_of_lt_mul (by rw [Nat.pow_succ] at hc; omega)
  rw [code_succ, List.append_assoc, show width + 2 = width + 1 + (0 + 1) by omega, scan_code hdiv,
    List.singleton_append, scan]
  have hvalue : c.toNat / 16 * 16 + c.toNat % 16 = c.toNat := by omega
  simp only [hexValue?_hexChar (Nat.mod_lt _ (by omega : 16 > 0)), Nat.zero_mul, Nat.zero_add,
    hvalue, ofCode_toNat, Nat.le_refl, if_true]

theorem named?_letter {c letter : Char} (h : letter? c = some letter) : named? letter = some c := by
  obtain ⟨before, after, htable, -⟩ := List.lookup_eq_some_iff.mp h
  have hall : ∀ pair ∈ before ++ (c, letter) :: after, named? pair.2 = some pair.1 := by
    rw [← htable]
    decide
  exact hall _ (List.mem_append_right _ List.mem_cons_self)

/-- An escape stands for its character. -/
theorem scan_escape {c : Char} {escape : List Char} (h : escape? c = some escape) :
    scan true (.text gap) read (escape ++ rest) =
      scan true (.text .none) (c :: (gap.text ++ read)) rest := by
  rcases escape?_cases c with ⟨letter, hletter, hescape⟩ | ⟨escape', hescape, hcode⟩ | ⟨hnone, -⟩
  · rw [h, Option.some.injEq] at hescape
    subst hescape
    show scan true (.text gap) read ('\\' :: letter :: rest) = _
    rw [scan_backslash, scan]
    simp only [named?_letter hletter]
  · rw [h, Option.some.injEq] at hescape
    subst hescape
    cases hcode with
    | byte hn | short hn | long hn =>
        simp only [List.cons_append]
        rw [scan_backslash, scan]
        exact scan_code_toNat hn
  · rw [h] at hnone
    cases hnone

/-! ## Single quotes -/

/-- The gaps that can be open in single quotes, by what the writer has just written and what comes
next: none, blanks, a fold, and line feeds inside their run or behind it. -/
inductive Awaits : Gap → Bool → Bool → List Char → Prop where
  | none {s : List Char} : Awaits .none false false s
  | blanks {s : List Char} (spaces : List Char) (h : s.head? ≠ some '\n') :
      Awaits (.blanks spaces) true false s
  | folded {s : List Char} (h : s.head? ≠ some ' ') (h' : s.head? ≠ some '\n') :
      Awaits (.lines '\n' []) true false s
  | within {s : List Char} (more : List Char) (h : s.head? = some '\n') :
      Awaits (.lines '\n' ('\n' :: more)) false true s
  | behind {s : List Char} (more : List Char) (h : s.head? ≠ some ' ') (h' : s.head? ≠ some '\n') :
      Awaits (.lines '\n' ('\n' :: more)) false false s

theorem isTight_tail {c : Char} {s : List Char} (h : isTight (c :: s) = true) :
    isTight s = true := by
  unfold isTight at h
  split at h
  · cases h
  · cases h
  · rename_i hcons
    exact (List.cons.inj hcons).2 ▸ h
  · rename_i hcons
    cases hcons

theorem head_ne_newline_of_isTight {s : List Char} (h : isTight (' ' :: s) = true) :
    s.head? ≠ some '\n' := by
  cases s with
  | nil => simp
  | cons c rest =>
      intro hc
      rw [List.head?_cons, Option.some.injEq] at hc
      subst hc
      cases h

theorem head_ne_space_of_isTight {s : List Char} (h : isTight ('\n' :: s) = true) :
    s.head? ≠ some ' ' := by
  cases s with
  | nil => simp
  | cons c rest =>
      intro hc
      rw [List.head?_cons, Option.some.injEq] at hc
      subst hc
      cases h

/-- A run of line feeds goes on with a line feed. -/
theorem atDivider_single {fold : Fold} {first afterSpace afterBreak : Bool} {column : Nat}
    {s more : List Char} (h : s.head? = some '\n') :
    atDivider (single fold first afterSpace afterBreak column s ++ more) = false := by
  obtain ⟨s, rfl⟩ := List.head?_eq_some_iff.mp h
  have hbreaks : (if afterBreak = true then ['\n'] else ['\n', '\n']) =
      '\n' :: if afterBreak = true then [] else ['\n'] := by
    cases afterBreak <;> rfl
  rw [single, if_pos rfl]
  dsimp only
  rw [hbreaks]
  split <;> exact atDivider_of_head (c := '\n') (by decide) (by decide) _

/-- A line feed is added to the gap, whether it is the first of its run or a later one. -/
theorem scan_feed {afterSpace afterBreak : Bool} {s : List Char}
    (hgap : Awaits gap afterSpace afterBreak ('\n' :: s)) (hrest : atDivider rest = false) :
    scan false (.text gap) read ((if afterBreak = true then ['\n'] else ['\n', '\n']) ++ rest) =
      scan false (.text (.lines '\n' ('\n' :: gap.text))) read rest := by
  have hfeed : atDivider ('\n' :: rest) = false := atDivider_of_head (by decide) (by decide) rest
  cases hgap with
  | none =>
      show scan false (.text .none) read ('\n' :: '\n' :: rest) = _
      rw [scan_newline hfeed, scan_newline hrest]
      rfl
  | blanks spaces h => exact absurd rfl h
  | folded h h' => exact absurd rfl h'
  | within more h =>
      show scan false (.text (.lines '\n' ('\n' :: more))) read ('\n' :: rest) = _
      rw [scan_newline hrest]
      rfl
  | behind more h h' => exact absurd rfl h'

theorem Awaits.addSpace {afterSpace afterBreak : Bool} {s : List Char}
    (hgap : Awaits gap afterSpace afterBreak (' ' :: s)) :
    gap.addSpace ' ' = .blanks (' ' :: gap.text) := by
  cases hgap with
  | none | blanks => rfl
  | folded h h' => exact absurd rfl h
  | within more h => cases h
  | behind more h h' => exact absurd rfl h

/-- A fold is only made where no gap is open. -/
theorem Awaits.eq_none {afterBreak : Bool} {s : List Char}
    (hgap : Awaits gap false afterBreak (' ' :: s)) : gap = .none := by
  cases hgap with
  | none => rfl
  | within more h => cases h
  | behind more h h' => exact absurd rfl h

theorem scan_quote_pair :
    scan false (.text gap) read ('\x27' :: '\x27' :: rest) =
      scan false (.text .none) ('\x27' :: (gap.text ++ read)) rest := by
  simp [scan, isSpace, isBreak]

/-- The closing quote ends the text. -/
theorem scan_quote_end (h : rest.head? ≠ some '\x27') :
    scan false (.text gap) read ('\x27' :: rest) =
      .ok (String.ofList (gap.text ++ read).reverse, rest) := by
  cases rest with
  | nil => simp [scan, isSpace, isBreak]
  | cons c rest =>
      have hc : c ≠ '\x27' := by simpa using h
      simp [scan, isSpace, isBreak, hc]

/-- Reading takes a text in single quotes back. -/
theorem scan_single {fold : Fold} {first afterSpace afterBreak : Bool} {column : Nat}
    {s tail : List Char} (hfold : ∀ k, fold = some k → 0 < k)
    (hbreaks : '\n' ∈ s → 0 < fold.getD 0) (hs : ∀ c ∈ s, isVisible c = true ∨ c = '\n')
    (htight : isTight s = true) (hgap : Awaits gap afterSpace afterBreak s)
    (htail : tail.head? ≠ some '\x27') :
    scan false (.text gap) read
        (single fold first afterSpace afterBreak column s ++ '\x27' :: tail) =
      .ok (String.ofList ((gap.text ++ read).reverse ++ s), tail) := by
  induction s generalizing gap read first afterSpace afterBreak column with
  | nil =>
      rw [single, List.nil_append, scan_quote_end htail, List.append_nil]
  | cons c rest ih =>
      obtain ⟨hc, hrest⟩ := List.forall_mem_cons.mp hs
      have hbreaks' : '\n' ∈ rest → 0 < fold.getD 0 := fun h => hbreaks (List.mem_cons_of_mem c h)
      have htight' := isTight_tail htight
      rw [single]
      by_cases hbreak : c = '\n'
      · subst hbreak
        rw [if_pos rfl]
        dsimp only
        by_cases hnext : rest.head? = some '\n'
        · rw [if_pos hnext, List.append_assoc, scan_feed hgap (atDivider_single hnext),
            ih hbreaks' hrest htight' (.within gap.text hnext)]
          simp [Gap.text]
        · have hindent : 0 < fold.getD 0 := hbreaks List.mem_cons_self
          rw [if_neg hnext, List.append_assoc, List.append_assoc,
            scan_feed hgap (atDivider_margin hindent _), scan_margin rfl,
            ih hbreaks' hrest htight' (.behind gap.text (head_ne_space_of_isTight htight) hnext)]
          simp [Gap.text]
      · have hvisible : isVisible c = true := hc.resolve_right hbreak
        rw [if_neg hbreak]
        by_cases hquote : c = '\x27'
        · subst hquote
          rw [if_pos rfl, List.cons_append, List.cons_append, scan_quote_pair,
            ih hbreaks' hrest htight' .none]
          simp [Gap.text]
        · rw [if_neg hquote]
          dsimp only
          by_cases hspace : c = ' '
          · subst hspace
            have hnext := head_ne_newline_of_isTight htight
            split
            · rename_i indent hfolds
              obtain ⟨hsome, hafter, hhead, -⟩ :=
                foldsAt_eq_some (Option.ite_none_right_eq_some.mp hfolds).2
              subst hafter
              rw [hgap.eq_none, newline, List.append_assoc, List.cons_append,
                scan_indent (hfold indent hsome)]
              show scan false (.text (.lines '\n' [])) read _ = _
              rw [ih hbreaks' hrest htight' (.folded hhead hnext)]
              simp [Gap.text]
            · rw [List.cons_append, scan_space, hgap.addSpace]
              show scan false _ read (single fold false true false _ rest ++ _) = _
              rw [ih hbreaks' hrest htight' (.blanks _ hnext)]
              simp [Gap.text]
          · simp only [hspace, decide_false, Bool.false_and, Bool.false_eq_true, if_false]
            rw [List.cons_append, scan_char hvisible hspace (fun _ => hquote) (by simp),
              ih hbreaks' hrest htight' .none]
            simp [Gap.text]

/-! ## Double quotes -/

/-- The gaps that can be open in double quotes: none, blanks, and a fold, which no blank follows. -/
inductive Resumes : Gap → List Char → Prop where
  | none {s : List Char} : Resumes .none s
  | blanks {s : List Char} (spaces : List Char) : Resumes (.blanks spaces) s
  | joined {s : List Char} (h : s.head? ≠ some ' ') : Resumes (.joined []) s

theorem Resumes.addSpace {s : List Char} (hgap : Resumes gap (' ' :: s)) :
    gap.addSpace ' ' = .blanks (' ' :: gap.text) := by
  cases hgap with
  | none | blanks => rfl
  | joined h => exact absurd rfl h

/-- A blank behind a fold is escaped, and stands in a line that has room for it. -/
theorem double_space {fold : Fold} {first afterEscape : Bool} {column : Nat} {s : List Char}
    (h : column ≤ width) :
    Writer.double fold first afterEscape column (' ' :: s) =
      ' ' :: Writer.double fold false false (column + 1) s := by
  have hescape : escape? ' ' = none := by decide
  have hroom : ¬ width < column := by omega
  rw [Writer.double]
  simp [hescape, hroom]

theorem scan_escaped_space :
    scan true .escape read (' ' :: rest) = scan true (.text .none) (' ' :: read) rest := by
  have hnamed : named? ' ' = some ' ' := by decide
  rw [scan]
  simp only [hnamed]

/-- Reading takes a text in double quotes back. -/
theorem scan_double {fold : Fold} (hfold : ∀ k, fold = some k → 0 < k ∧ k < width) {n : Nat}
    {first afterEscape : Bool} {column : Nat} {s tail : List Char} (hn : s.length ≤ n)
    (hgap : Resumes gap s) :
    scan true (.text gap) read (Writer.double fold first afterEscape column s ++ '"' :: tail) =
      .ok (String.ofList ((gap.text ++ read).reverse ++ s), tail) := by
  -- A fold may take the blank behind it along, so the induction is on the length of the text.
  induction n generalizing gap read first afterEscape column s with
  | zero =>
      obtain rfl : s = [] := List.eq_nil_of_length_eq_zero (by omega)
      simp [Writer.double, scan, isSpace, isBreak]
  | succ n ih =>
      cases s with
      | nil => simp [Writer.double, scan, isSpace, isBreak]
      | cons c rest =>
          have hlength : rest.length ≤ n := by simpa using hn
          rw [Writer.double]
          dsimp only
          cases hescape : escape? c with
          | some escape =>
              simp only
              split
              · rename_i indent hsome
                obtain ⟨hpos, hroom⟩ := hfold indent (Option.ite_none_right_eq_some.mp hsome).2
                simp only [List.append_assoc, List.cons_append, newline]
                rw [scan_escape hescape, scan_join hpos]
                by_cases hguard : rest.head? = some ' '
                · obtain ⟨rest, rfl⟩ := List.head?_eq_some_iff.mp hguard
                  rw [if_pos hguard, if_pos hguard, double_space (by omega)]
                  simp only [List.cons_append, List.nil_append]
                  rw [scan_backslash, scan_escaped_space,
                    ih (by simp only [List.length_cons] at hlength; omega) .none]
                  simp [Gap.text]
                · rw [if_neg hguard, if_neg hguard, List.nil_append, ih hlength (.joined hguard)]
                  simp [Gap.text]
              · rw [List.append_assoc, scan_escape hescape, ih hlength .none]
                simp [Gap.text]
          | none =>
              obtain ⟨hletter, hvisible⟩ := letter?_of_escape?_eq_none hescape
              have hquote : c ≠ '"' := by
                rintro rfl
                exact absurd hletter (by decide)
              have hslash : c ≠ '\\' := by
                rintro rfl
                exact absurd hletter (by decide)
              simp only
              split
              · rename_i indent hsome
                obtain ⟨hpos, -⟩ := hfold indent (Option.ite_none_right_eq_some.mp hsome).2
                simp only [List.append_assoc, List.cons_append, newline]
                rw [scan_join hpos]
                by_cases hspace : c = ' '
                · subst hspace
                  rw [if_pos rfl]
                  simp only [List.singleton_append]
                  rw [scan_backslash, scan_escaped_space, ih hlength .none]
                  simp [Gap.text]
                · rw [if_neg hspace, List.nil_append,
                    scan_char hvisible hspace (by simp) fun _ => ⟨hquote, hslash⟩, ih hlength .none]
                  simp [Gap.text]
              · rw [List.cons_append]
                by_cases hspace : c = ' '
                · subst hspace
                  rw [scan_space, hgap.addSpace, ih hlength (.blanks _)]
                  simp [Gap.text]
                · rw [scan_char hvisible hspace (by simp) fun _ => ⟨hquote, hslash⟩,
                    ih hlength .none]
                  simp [Gap.text]

end Quoted
end Yaml
end Polyglot
