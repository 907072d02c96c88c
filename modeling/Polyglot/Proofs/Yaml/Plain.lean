/-
Scalars without quotes read back.

A text that is written plain has no colon before a blank and no number sign behind one, so nothing
in it ends the scalar.  Its folds are single blanks, and the lines behind them are indented as far
as the reader asks.  `scan_plain` brings the reader to the end of the text; what ends the scalar is
the colon of a key (`scan_colon`) or a line with less indentation (`scan_outdent`).
-/
import Polyglot.Proofs.Yaml.Quoted
import Polyglot.Yaml.Token.Plain

namespace Polyglot
namespace Yaml

open Writer

/-! ## Lines -/

/-- How far a line is indented. -/
def marginOf (text : List Char) : Nat := (text.takeWhile (· = ' ')).length

/-- A line without its margin, and what follows it. -/
def afterMargin (text : List Char) : List Char := text.dropWhile (· = ' ')

theorem replicate_marginOf (text : List Char) :
    List.replicate (marginOf text) ' ' ++ afterMargin text = text := by
  have hblanks : text.takeWhile (· = ' ') = List.replicate (marginOf text) ' ' := by
    have hall := List.all_takeWhile (l := text) (p := (· = ' '))
    exact List.eq_replicate_of_mem fun c hc => by simpa using List.all_eq_true.mp hall c hc
  rw [← hblanks]
  exact List.takeWhile_append_dropWhile

/-- Nothing, or something else than a blank, a line break or a comment. -/
def Opens (s : List Char) : Prop := ∀ c, s.head? = some c → c ≠ ' ' ∧ isBreak c = false ∧ c ≠ '#'

section Margin

variable {s : List Char} (h : Opens s) (k : Nat)

include h

theorem takeWhile_of_opens : s.takeWhile (· = ' ') = [] := by
  cases s with
  | nil => rfl
  | cons c rest => simp [(h c rfl).1]

theorem marginOf_replicate : marginOf (List.replicate k ' ' ++ s) = k := by
  rw [marginOf, List.takeWhile_append_of_pos (by simp), takeWhile_of_opens h]
  simp

theorem afterMargin_replicate : afterMargin (List.replicate k ' ' ++ s) = s := by
  have hsame := replicate_marginOf (List.replicate k ' ' ++ s)
  rw [marginOf_replicate h] at hsame
  exact List.append_cancel_left hsame

end Margin

/-- A line that holds a token and divides no documents, or the end of the text. -/
structure IsLine (text : List Char) : Prop where
  opens : Opens (afterMargin text)
  undivided : atDivider text = false

theorem isLine_nil : IsLine [] where
  opens := by simp [Opens, afterMargin]
  undivided := rfl

/-- An indented line divides nothing. -/
theorem isLine_indented {k : Nat} (hk : 0 < k) {s : List Char} (h : Opens s) :
    IsLine (List.replicate k ' ' ++ s) where
  opens := by rw [afterMargin_replicate h]; exact h
  undivided := atDivider_margin hk s

namespace Plain

variable {indent column : Nat} {gap : Gap} {read rest : List Char}

/-! ## One character -/

theorem scan_space :
    scan false indent read gap column (' ' :: rest) =
      scan false indent read (gap.addSpace ' ') (column + 1) rest := by
  rw [scan.eq_def]
  simp

theorem scan_newline (h : atDivider rest = false) :
    scan false indent read gap column ('\n' :: rest) =
      scan false indent read (gap.addBreak '\n') 0 rest := by
  rw [scan.eq_def]
  simp [isBreak, h]

theorem scan_margin (h : gap.addSpace ' ' = gap) (k : Nat) :
    scan false indent read gap column (List.replicate k ' ' ++ rest) =
      scan false indent read gap (column + k) rest := by
  induction k generalizing column with
  | zero => rfl
  | succ k ih =>
      show scan false indent read gap column (' ' :: (List.replicate k ' ' ++ rest)) = _
      rw [scan_space, h, ih, Nat.add_assoc, Nat.add_comm 1]

/-- A line break with the indentation of the next line. -/
theorem scan_indent {k : Nat} (hk : 0 < k) :
    scan false indent read gap column ('\n' :: (List.replicate k ' ' ++ rest)) =
      scan false indent read (gap.addBreak '\n') k rest := by
  rw [scan_newline (atDivider_margin hk rest), scan_margin, Nat.zero_add]
  cases gap <;> rfl

/-! ## The text -/

/-- The gaps that can be open in a plain scalar, by the column at which the line began and what
comes next: none, blanks, and a fold. -/
inductive Carries (indent : Nat) : Gap → Nat → Bool → List Char → Prop where
  | none {column : Nat} {s : List Char} : Carries indent .none column false s
  | blanks {column : Nat} {s : List Char} (spaces : List Char) :
      Carries indent (.blanks spaces) column true s
  | folded {column : Nat} {s : List Char} (h : s.head? ≠ some ' ') (hcolumn : indent ≤ column) :
      Carries indent (.lines '\n' []) column true s

theorem Carries.addSpace {afterSpace : Bool} {s : List Char}
    (h : Carries indent gap column afterSpace (' ' :: s)) :
    gap.addSpace ' ' = .blanks (' ' :: gap.text) := by
  cases h with
  | none | blanks => rfl
  | folded h _ => exact absurd rfl h

theorem Carries.eq_none {s : List Char} (h : Carries indent gap column false s) : gap = .none := by
  cases h
  rfl

/-- A character that is no blank and ends nothing is read with the gap before it. -/
theorem scan_char {afterSpace blank : Bool} {c : Char} {s : List Char}
    (hgap : Carries indent gap column afterSpace s) (hblank : afterSpace = true → blank = true)
    (hvisible : isVisible c = true) (hspace : c ≠ ' ') (hsign : (c = '#' && blank) = false)
    (hcolon : c = ':' → endsAt isGap rest = false) :
    scan false indent read gap column (c :: rest) =
      scan false indent (c :: (gap.text ++ read)) .none 0 rest := by
  have hends : stops false c rest = false := by
    simp only [stops, isGap_of_isVisible hvisible, hspace, decide_false, Bool.false_and,
      Bool.false_or, Bool.or_false, Bool.and_eq_false_iff, decide_eq_false_iff_not]
    by_cases hc : c = ':'
    · exact .inr (hcolon hc)
    · exact .inl hc
  have hbreak := isBreak_of_isVisible hvisible
  rw [scan.eq_def]
  cases hgap with
  | none => simp [hends, hspace, hbreak]
  | blanks spaces =>
      have hsign' : c ≠ '#' := by simpa [hblank rfl] using hsign
      simp [hends, hspace, hbreak, hsign']
  | folded h hcolumn =>
      have hsign' : c ≠ '#' := by simpa [hblank rfl] using hsign
      have hdeep : ¬ column < indent := by omega
      simp [hends, hspace, hbreak, hsign', hdeep]

/-- What is written begins as the text does. -/
theorem plain_cons {fold : Fold} {afterSpace : Bool} {column : Nat} {c : Char} {s : List Char}
    (h : c ≠ ' ') :
    plain fold afterSpace column (c :: s) = c :: plain fold false (column + 1) s := by
  rw [plain]
  simp [h]

/-- Reading takes a plain text back and stands behind it, with no gap open. -/
theorem scan_plain {fold : Fold} {afterSpace blank : Bool} {at_ : Nat} {s tail : List Char}
    (hfold : ∀ k, fold = some k → 0 < k ∧ indent ≤ k) (hne : s ≠ [])
    (hs : ∀ c ∈ s, isVisible c = true) (hlast : s.getLast? ≠ some ' ')
    (hsteady : isSteady blank s = true) (hblank : afterSpace = true → blank = true)
    (hgap : Carries indent gap column afterSpace s) :
    scan false indent read gap column (plain fold afterSpace at_ s ++ tail) =
      scan false indent (s.reverse ++ (gap.text ++ read)) .none 0 tail := by
  induction s generalizing read gap column afterSpace blank at_ with
  | nil => exact absurd rfl hne
  | cons c rest ih =>
      obtain ⟨hvisible, hrest⟩ := List.forall_mem_cons.mp hs
      simp only [isSteady, Bool.and_eq_true, Bool.not_eq_true'] at hsteady
      obtain ⟨⟨hcolon, hsign⟩, hsteady'⟩ := hsteady
      have hlast' : rest ≠ [] → rest.getLast? ≠ some ' ' := by
        intro hrest' heq
        obtain ⟨d, rest', rfl⟩ := List.exists_cons_of_ne_nil hrest'
        exact hlast (by rw [List.getLast?_cons_cons]; exact heq)
      by_cases hspace : c = ' '
      · subst hspace
        have hrest' : rest ≠ [] := by
          rintro rfl
          exact hlast rfl
        rw [plain]
        simp only [if_true]
        split
        · rename_i k hfolds
          obtain ⟨hsome, hafter, hhead, -⟩ := foldsAt_eq_some hfolds
          obtain ⟨hpos, hdeep⟩ := hfold k hsome
          subst hafter
          rw [hgap.eq_none, newline, List.append_assoc, List.cons_append, scan_indent hpos]
          show scan false indent read (.lines '\n' []) k (plain fold true k rest ++ tail) = _
          rw [ih hrest' hrest (hlast' hrest') hsteady' (fun _ => rfl) (.folded hhead hdeep)]
          simp [Gap.text]
        · rw [List.cons_append, scan_space, hgap.addSpace]
          show scan false indent read _ _ (plain fold true (at_ + 1) rest ++ tail) = _
          rw [ih hrest' hrest (hlast' hrest') hsteady' (fun _ => rfl) (.blanks _)]
          simp [Gap.text]
      · -- A colon is followed by a character that is no blank, and so it is in what is written.
        have hcolon' : c = ':' →
            endsAt isGap (plain fold false (at_ + 1) rest ++ tail) = false := by
          intro hc
          cases rest with
          | nil => simp [hc, endsAt] at hcolon
          | cons d rest =>
              have hd : isGap d = false := by simpa [hc, endsAt] using hcolon
              have hne : d ≠ ' ' := by
                rintro rfl
                exact absurd hd (by decide)
              rw [plain_cons hne]
              exact hd
        rw [plain_cons hspace, List.cons_append,
          scan_char hgap hblank hvisible hspace hsign hcolon']
        cases rest with
        | nil => simp [plain]
        | cons d rest =>
            rw [ih (List.cons_ne_nil d rest) hrest (hlast' (List.cons_ne_nil d rest)) hsteady'
              (by simp) .none]
            simp [Gap.text]

/-! ## The end of the text -/

/-- The colon of a key ends its scalar. -/
theorem scan_colon (h : endsAt isGap rest = true) :
    scan false indent read .none column (':' :: rest) =
      { text := String.ofList read.reverse, rest := ':' :: rest, crossed := false } := by
  have hends : stops false ':' rest = true := by
    simp only [stops, Bool.false_and, Bool.or_false]
    simp [h]
  rw [scan.eq_def]
  simp [hends, finish, isBreak]

/-- A line that is indented less than it would have to be ends the scalar, and the reader stands
behind its margin. -/
theorem scan_outdent {text : List Char} (hmargin : marginOf text < indent) (htext : IsLine text) :
    scan false indent read .none column ('\n' :: text) =
      { text := String.ofList read.reverse, rest := afterMargin text, crossed := true } := by
  have hskip : scan false indent read (.lines '\n' []) 0 text =
      scan false indent read (.lines '\n' []) (marginOf text) (afterMargin text) := by
    have h : scan false indent read (.lines '\n' []) 0
          (List.replicate (marginOf text) ' ' ++ afterMargin text) = _ := scan_margin rfl _
    rwa [replicate_marginOf, Nat.zero_add] at h
  rw [scan_newline htext.undivided]
  show scan false indent read (.lines '\n' []) 0 text = _
  rw [hskip]
  cases hafter : afterMargin text with
  | nil => rfl
  | cons c rest =>
      obtain ⟨hspace, hbreak, -⟩ := htext.opens c (by rw [hafter]; rfl)
      rw [scan.eq_def]
      simp [hspace, hbreak, finish, hmargin]

end Plain
end Yaml
end Polyglot
