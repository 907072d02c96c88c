/-
How a scan goes forward.

A scan is given as many steps as its text has characters, and one more for the end.  `Leads` relates
two points of a scan: the later one is reached in a number of steps that the characters between them
pay for, so that nothing is said about the steps that are left.  `Stand` is a point before a token,
outside brackets and with no key pending, and most of what a scan does is to go from one such point
to the next (`Reaches`).  A scan that comes to the end of its text, or to a fault, ends there
(`Ends`).
-/
import Mathlib.Data.List.TakeWhile
import Polyglot.Proofs.Yaml.Plain
import Polyglot.Yaml.Token.Scan

namespace Polyglot
namespace Yaml

open Writer

/-! ## Positions -/

namespace Position

variable {p : Position}

theorem advance_of_isVisible {c : Char} (h : isVisible c = true) :
    p.advance c = { p with index := p.index + 1, column := p.column + 1 } := by
  have hmark : c ≠ '\uFEFF' := ne_of_isVisible h (by decide)
  simp [advance, isBreak_of_isVisible h, hmark]

/-- Visible characters stand on one line, each in a column of its own. -/
theorem foldl_advance_of_isVisible {w : List Char} (h : ∀ c ∈ w, isVisible c = true) :
    w.foldl advance p =
      { p with index := p.index + w.length, column := p.column + w.length } := by
  induction w generalizing p with
  | nil => rfl
  | cons c rest ih =>
      obtain ⟨hc, hrest⟩ := List.forall_mem_cons.mp h
      rw [List.foldl_cons, ih hrest, advance_of_isVisible hc]
      simp only [List.length_cons]
      congr 1 <;> omega

theorem line_le_foldl_advance (w : List Char) : p.line ≤ (w.foldl advance p).line := by
  induction w generalizing p with
  | nil => exact Nat.le_refl _
  | cons c rest ih =>
      have hstep : p.line ≤ (p.advance c).line := by
        rw [advance]
        split <;> simp
      exact Nat.le_trans hstep ih

theorem column_foldl_advance_margin (k : Nat) :
    ((List.replicate k ' ').foldl advance p).column = p.column + k ∧
      ((List.replicate k ' ').foldl advance p).line = p.line := by
  have hvisible : ∀ c ∈ List.replicate k ' ', isVisible c = true := by
    intro c hc
    rw [List.eq_of_mem_replicate hc]
    rfl
  rw [foldl_advance_of_isVisible hvisible, List.length_replicate]
  exact ⟨rfl, rfl⟩

end Position

namespace Scan

variable {s t : Scan}

/-- What lies before the rest has been passed. -/
theorem moveTo_append {passed rest : List Char} (h : s.rest = passed ++ rest) :
    s.moveTo rest = { s with rest, position := passed.foldl Position.advance s.position } := by
  have hlength : s.rest.length - rest.length = passed.length := by simp [h]
  have htake : s.rest.take passed.length = passed := by simp [h]
  simp only [moveTo, hlength, htake]

/-! ## Between tokens -/

section Skip

variable {flow allowed : Bool} {p : Position} {rest : List Char}

theorem skip_margin (k : Nat) :
    skip flow false p allowed (List.replicate k ' ' ++ rest) =
      skip flow false ((List.replicate k ' ').foldl Position.advance p) allowed rest := by
  induction k generalizing p with
  | zero => rfl
  | succ k ih =>
      show skip flow false p allowed (' ' :: (List.replicate k ' ' ++ rest)) = _
      rw [skip]
      simp only [isBreak, decide_true, Bool.or_true, if_true]
      exact ih

/-- Outside brackets a key may begin on a new line. -/
theorem skip_newline :
    skip false false p allowed ('\n' :: rest) = skip false false (p.advance '\n') true rest := by
  rw [skip]
  simp [isBreak]

theorem skip_of_opens (h : Opens rest) : skip flow false p allowed rest = (rest, p, allowed) := by
  cases rest with
  | nil => rfl
  | cons c rest =>
      obtain ⟨hspace, hbreak, hsign⟩ := h c rfl
      rw [skip]
      simp [hspace, hbreak, hsign]

theorem suffix_skip (comment : Bool) : (skip flow comment p allowed rest).1 <:+ rest := by
  induction rest generalizing p allowed comment with
  | nil => exact List.suffix_refl []
  | cons c rest ih =>
      have hstep {comment allowed : Bool} {p : Position} :
          (skip flow comment p allowed rest).1 <:+ c :: rest :=
        (ih comment).trans (List.suffix_cons c rest)
      rw [skip]
      split
      · exact hstep
      · split
        · exact hstep
        · split
          · exact hstep
          · exact List.suffix_refl _

end Skip

theorem suffix_toNextToken : s.toNextToken.rest <:+ s.rest := suffix_skip false

theorem rest_of_dropStale (h : s.dropStale = .ok t) : t.rest = s.rest := by
  rw [dropStale] at h
  split at h
  · cases h
  · cases h
    rfl

/-- Outside brackets there is at most one pending key. -/
theorem dropStale_of_pending {key : PendingKey} (hpending : s.pending = some key)
    (houter : s.outer = []) :
    s.dropStale =
      if isStale s.position key && key.required then .error .malformed
      else .ok { s with pending := if isStale s.position key then none else some key } := by
  obtain ⟨rest, position, indents, keyAllowed, pending, outer, tokens⟩ := s
  cases hpending
  cases houter
  cases hstale : isStale position key <;> simp [dropStale, staleFault, hstale, Option.filter]

theorem close_eq_self {keeps : Nat → Bool}
    (h : ∀ column, s.indents.head? = some column → keeps column = true) : s.close keeps = s := by
  obtain ⟨rest, position, indents, keyAllowed, pending, outer, tokens⟩ := s
  cases indents with
  | nil => simp [close]
  | cons first indents =>
      have hfirst : keeps first = true := h first rfl
      simp [close, hfirst]

/-! ## Steps of a scan -/

theorem run_succ_of_token {fresh next : Scan} {c : Char} {rest : List Char}
    (hfresh : s.toNextToken.dropStale = .ok fresh) (hrest : fresh.rest = c :: rest)
    (htoken : (fresh.close fun column => decide (column ≤ fresh.position.column)).token c rest =
      .ok next) (n : Nat) :
    run (n + 1) s = run n next := by
  rw [run, hfresh]
  simp only [hrest, htoken]

theorem run_succ_of_fault {fresh : Scan} {c : Char} {rest : List Char} {fault : Fault}
    (hfresh : s.toNextToken.dropStale = .ok fresh) (hrest : fresh.rest = c :: rest)
    (htoken : (fresh.close fun column => decide (column ≤ fresh.position.column)).token c rest =
      .error fault) (n : Nat) :
    run (n + 1) s = (s.settled, some fault) := by
  rw [run, hfresh]
  simp only [hrest, htoken]

/-- The scan `s` goes on as `t`, after steps that the characters between them pay for. -/
def Leads (s t : Scan) : Prop :=
  ∃ k, t.rest.length + k ≤ s.rest.length ∧ ∀ n, run (n + k) s = run n t

theorem Leads.refl (s : Scan) : Leads s s := ⟨0, Nat.le_refl _, fun _ => rfl⟩

theorem Leads.trans {u : Scan} (h : Leads s t) (h' : Leads t u) : Leads s u := by
  obtain ⟨k, hk, hrun⟩ := h
  obtain ⟨m, hm, hrun'⟩ := h'
  refine ⟨m + k, by omega, fun n => ?_⟩
  rw [← Nat.add_assoc, hrun, hrun']

/-- A token leads on if it takes a character. -/
theorem Leads.token {fresh next : Scan} {c : Char} {rest : List Char}
    (hfresh : s.toNextToken.dropStale = .ok fresh) (hrest : fresh.rest = c :: rest)
    (htoken : (fresh.close fun column => decide (column ≤ fresh.position.column)).token c rest =
      .ok next) (hlength : next.rest.length ≤ rest.length) :
    Leads s next := by
  refine ⟨1, ?_, run_succ_of_token hfresh hrest htoken⟩
  have hskip : fresh.rest.length ≤ s.rest.length := by
    rw [rest_of_dropStale hfresh]
    exact suffix_toNextToken.length_le
  rw [hrest, List.length_cons] at hskip
  omega

/-- The scan comes to a result in the steps that its text pays for. -/
def Ends (s : Scan) (result : List Token × Option Fault) : Prop :=
  ∀ n, s.rest.length < n → run n s = result

theorem Leads.ends {result : List Token × Option Fault} (h : Leads s t) (hends : Ends t result) :
    Ends s result := by
  obtain ⟨k, hk, hrun⟩ := h
  intro n hn
  obtain ⟨m, rfl⟩ : ∃ m, n = m + k := ⟨n - k, by omega⟩
  rw [hrun]
  exact hends m (by omega)

/-! ## Before a token -/

/-- A point before a token, outside brackets and with no key pending. -/
structure Stand where
  rest : List Char
  column : Nat
  keyAllowed : Bool := true
  indents : List Nat
  tokens : List Token

namespace Stand

/-- The state of a scan at a point. -/
def scan (a : Stand) (p : Position) : Scan :=
  { rest := a.rest, position := p, indents := a.indents, keyAllowed := a.keyAllowed,
    tokens := a.tokens }

/-- Whether a block at a column holds the point. -/
def holds (a : Stand) (column : Nat) : Bool := decide (column ≤ a.column)

/-- The point with the blocks closed that do not hold it. -/
def closed (a : Stand) : Stand :=
  { a with
    indents := a.indents.dropWhile fun column => !a.holds column,
    tokens := List.replicate (a.indents.takeWhile fun column => !a.holds column).length .blockEnd ++
      a.tokens }

theorem closed_eq_self {a : Stand}
    (h : ∀ column, a.indents.head? = some column → column ≤ a.column) :
    a.closed = a := by
  obtain ⟨rest, column, keyAllowed, indents, tokens⟩ := a
  cases indents with
  | nil => rfl
  | cons first indents =>
      have hfirst : first ≤ column := h first rfl
      simp [closed, holds, hfirst]

/-- The innermost block that is left holds the point. -/
theorem head_closed_le {a : Stand} {column : Nat} (h : a.closed.indents.head? = some column) :
    column ≤ a.column := by
  have hholds := List.head?_dropWhile_not (fun column => !a.holds column) a.indents
  rw [show (a.indents.dropWhile fun column => !a.holds column).head? = some column from h] at hholds
  simpa [holds] using hholds

theorem close_scan {a : Stand} {p : Position} (hp : p.column = a.column) :
    ((a.scan p).close fun column => decide (column ≤ p.column)) = a.closed.scan p := by
  rw [hp]
  rfl

/-- The beginning of a line of text. -/
def line (text : List Char) (indents : List Nat) (tokens : List Token) : Stand :=
  { rest := afterMargin text, column := marginOf text, indents, tokens }

end Stand

/-- The scan stands at a point, once blanks and stale keys are passed over. -/
def Stands (s : Scan) (a : Stand) : Prop :=
  ∃ p : Position, p.column = a.column ∧ s.toNextToken.dropStale = .ok (a.scan p)

/-- A pending key of an earlier line is given up without a word if it was not required. -/
theorem stands_of_skip {q : Position} {allowed : Bool} {rest : List Char} (houter : s.outer = [])
    (hpending : ∀ key, s.pending = some key → key.required = false ∧ key.position.line < q.line)
    (hskip : skip false false s.position s.keyAllowed s.rest = (rest, q, allowed)) :
    Stands s { rest, column := q.column, keyAllowed := allowed, indents := s.indents,
               tokens := s.tokens } := by
  refine ⟨q, rfl, ?_⟩
  have hnext : s.toNextToken = { s with rest, position := q, keyAllowed := allowed } := by
    simp only [toNextToken, inFlow, houter, List.isEmpty_nil, Bool.not_true, hskip]
  rw [hnext]
  cases hkey : s.pending with
  | none => simp [dropStale, houter, staleFault, Stand.scan]
  | some key =>
      obtain ⟨hrequired, hline⟩ := hpending key hkey
      have hstale : isStale q key = true := by
        have hne : key.position.line ≠ q.line := Nat.ne_of_lt hline
        simp [isStale, hne]
      rw [houter, dropStale_of_pending rfl rfl]
      simp [hrequired, hstale, Stand.scan]

/-- The point behind a blank. -/
theorem stands_behind_blank {rest : List Char} {column : Nat} (houter : s.outer = [])
    (hpending : s.pending = none) (hrest : s.rest = ' ' :: rest) (hopens : Opens rest)
    (hcolumn : s.position.column + 1 = column) :
    Stands s { rest, column, keyAllowed := s.keyAllowed, indents := s.indents,
               tokens := s.tokens } := by
  have hskip : skip false false s.position s.keyAllowed s.rest =
      (rest, s.position.advance ' ', s.keyAllowed) := by
    rw [hrest]
    exact (skip_margin 1).trans (skip_of_opens hopens)
  have hstands := stands_of_skip houter (by simp [hpending]) hskip
  rw [Position.advance_of_isVisible (by rfl)] at hstands
  exact hcolumn ▸ hstands

/-- The point at the beginning of the next line, whether the line break lies before the scan or has
been passed. -/
theorem stands_at_line {text : List Char} {p : Position} (houter : s.outer = [])
    (hpending : ∀ key, s.pending = some key →
      key.required = false ∧ key.position.line ≤ p.line) (htext : IsLine text)
    (hplace : s.position = p ∧ s.rest = '\n' :: text ∨
      s.position = ('\n' :: List.replicate (marginOf text) ' ').foldl Position.advance p ∧
        s.rest = afterMargin text ∧ s.keyAllowed = true) :
    Stands s (.line text s.indents s.tokens) := by
  have hnewline : p.advance '\n' = { index := p.index + 1, line := p.line + 1, column := 0 } := by
    simp [Position.advance, isBreak]
  have hcolumn := Position.column_foldl_advance_margin (p := p.advance '\n') (marginOf text)
  have hskip : skip false false s.position s.keyAllowed s.rest =
      (afterMargin text,
        (List.replicate (marginOf text) ' ').foldl Position.advance (p.advance '\n'), true) := by
    rcases hplace with ⟨hposition, hrest⟩ | ⟨hposition, hrest, hallowed⟩
    · have hmargin : skip false false (p.advance '\n') true
          (List.replicate (marginOf text) ' ' ++ afterMargin text) = _ := skip_margin _
      rw [replicate_marginOf, skip_of_opens htext.opens] at hmargin
      rw [hrest, hposition, skip_newline, hmargin]
    · rw [hrest, hposition, hallowed, skip_of_opens htext.opens]
      rfl
  have hstands := stands_of_skip houter (fun key hkey => by
    obtain ⟨hrequired, hline⟩ := hpending key hkey
    rw [hcolumn.2, hnewline]
    exact ⟨hrequired, Nat.lt_succ_of_le hline⟩) hskip
  rw [hcolumn.1, hnewline, Nat.zero_add] at hstands
  exact hstands

/-- A point without text ends the scan: all blocks end with it. -/
theorem Stands.ends {a : Stand} (h : Stands s a) (hrest : a.rest = []) :
    Ends s
      ((.streamEnd :: (List.replicate a.indents.length .blockEnd ++ a.tokens)).reverse, none) := by
  obtain ⟨p, -, hfresh⟩ := h
  intro n hn
  obtain ⟨n, rfl⟩ := Nat.exists_eq_succ_of_ne_zero (by omega : n ≠ 0)
  rw [run, hfresh]
  have hnone : (a.scan p).rest = [] := hrest
  have hall : a.indents.takeWhile (fun _ => true) = a.indents :=
    List.takeWhile_eq_self_iff.mpr fun _ _ => rfl
  simp only [hnone]
  simp [hall, between, close, inFlow, Stand.scan, dropPending, push, bind, Except.bind, pure,
    Except.pure]

/-- The scan `s` comes to stand at a point. -/
def Reaches (s : Scan) (a : Stand) : Prop := ∃ t, Leads s t ∧ Stands t a

theorem Stands.reaches {a : Stand} (h : Stands s a) : Reaches s a := ⟨s, .refl s, h⟩

/-- A token takes a scan from a point to whatever holds behind the token. -/
theorem Reaches.token {a : Stand} {c : Char} {rest : List Char} {P : Scan → Prop}
    (h : Reaches s a) (hrest : a.rest = c :: rest)
    (htoken : ∀ p : Position, p.column = a.column → ∃ next,
      (a.closed.scan p).token c rest = .ok next ∧ next.rest.length ≤ rest.length ∧ P next) :
    ∃ next, Leads s next ∧ P next := by
  obtain ⟨t, hleads, p, hp, hfresh⟩ := h
  obtain ⟨next, hnext, hlength, hP⟩ := htoken p hp
  refine ⟨next, hleads.trans (.token hfresh hrest ?_ hlength), hP⟩
  rw [← hnext]
  exact congrArg (fun s => s.token c rest) (Stand.close_scan hp)

theorem Reaches.ends {a : Stand} (h : Reaches s a) (hrest : a.rest = []) :
    Ends s
      ((.streamEnd :: (List.replicate a.indents.length .blockEnd ++ a.tokens)).reverse, none) := by
  obtain ⟨t, hleads, hstands⟩ := h
  exact hleads.ends (hstands.ends hrest)

end Scan
end Yaml
end Polyglot
