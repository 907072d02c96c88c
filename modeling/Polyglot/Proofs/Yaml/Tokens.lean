/-
The tokens of what is written.

Each lemma takes a scan from the point where something written begins to the point behind it, with
the tokens that it stands for: a scalar that ends its line (`Reaches.past_scalar`), a key with its
colon (`Reaches.past_key`), the signs of items and of keys that stand alone (`Reaches.past_signal`),
and empty brackets (`Reaches.past_brackets`).  Lists and tables follow by induction on their items.

A key on one line with its value is only read as a key while it is short enough.  The writer counts
the characters of the text, the reader those that are written, and an escape is written with up to
ten: a key that is too long ends the scan (`Reaches.key_too_long`).
-/
import Polyglot.Proofs.Yaml.Scan

namespace Polyglot
namespace Yaml

open Writer

/-! ## How scalars begin -/

namespace Writer

/-- Whether a text is written without quotes. -/
def isPlain (s : String) : Bool := decide (style s = .plain)

def scalarToken (s : String) : Token := .scalar s (isPlain s)

/-- What a text that is written plain has at its ends and inside. -/
theorem allowsPlain_cons {c : Char} {rest : List Char} (h : allowsPlain (c :: rest) = true) :
    c ≠ ' ' ∧ (c :: rest).getLast? ≠ some ' ' ∧ isOpening c = false ∧
      (c = '?' ∨ c = '-' → endsAt isGap rest = false) ∧ isSteady true (c :: rest) = true := by
  simp only [allowsPlain, Bool.and_eq_true, decide_eq_true_eq, Bool.not_eq_true'] at h
  obtain ⟨⟨⟨⟨⟨⟨-, hspace⟩, hlast⟩, -⟩, hopening⟩, hsign⟩, hsteady⟩ := h
  refine ⟨hspace, hlast, hopening, fun hc => ?_, hsteady⟩
  rcases hc with rfl | rfl <;> simpa using hsign

/-- A dash, a question mark or a colon at the start of a plain scalar stands before a character that
is no blank. -/
theorem endsAt_plain {c : Char} {rest : List Char} (h : allowsPlain (c :: rest) = true)
    (hc : c = '-' ∨ c = '?' ∨ c = ':') (fold : Fold) (column : Nat) (tail : List Char) :
    endsAt isGap (plain fold false column rest ++ tail) = false := by
  obtain ⟨-, -, -, hsign, hsteady⟩ := allowsPlain_cons h
  have hrest : endsAt isGap rest = false := by
    rcases hc with rfl | rfl | rfl
    · exact hsign (.inr rfl)
    · exact hsign (.inl rfl)
    · simp only [isSteady, Bool.and_eq_true] at hsteady
      simpa using hsteady.1.1
  cases rest with
  | nil => cases hrest
  | cons d rest =>
      have hd : d ≠ ' ' := by
        rintro rfl
        cases hrest
      rw [Plain.plain_cons hd]
      exact hrest

theorem scalar_of_plain {fold : Fold} {column : Nat} {s : String} (h : style s = .plain) :
    scalar fold column s = plain fold false column s.toList := by
  rw [scalar, h]

theorem scalar_of_single {fold : Fold} {column : Nat} {s : String} (h : style s = .single) :
    scalar fold column s =
      '\x27' :: (single fold true false false (column + 1) s.toList ++ ['\x27']) := by
  rw [scalar, h]
  rfl

theorem scalar_of_double {fold : Fold} {column : Nat} {s : String} (h : style s = .double) :
    scalar fold column s = '"' :: (double fold true false (column + 1) s.toList ++ ['"']) := by
  rw [scalar, h]
  rfl

/-- A scalar begins with a character that is no blank, no line break and no number sign. -/
theorem scalar_cons (fold : Fold) (column : Nat) (s : String) :
    ∃ c rest, scalar fold column s = c :: rest ∧ c ≠ ' ' ∧ isBreak c = false ∧ c ≠ '#' := by
  cases hstyle : style s with
  | plain =>
      obtain ⟨hplain, -⟩ := style_plain hstyle
      rw [scalar_of_plain hstyle]
      cases hs : s.toList with
      | nil =>
          rw [hs] at hplain
          cases hplain
      | cons c rest =>
          rw [hs] at hplain
          obtain ⟨hspace, -, hopening, -⟩ := allowsPlain_cons hplain
          have hvisible := isVisible_of_allowsPlain hplain c List.mem_cons_self
          refine ⟨c, _, Plain.plain_cons hspace, hspace, isBreak_of_isVisible hvisible, ?_⟩
          rintro rfl
          cases hopening
  | single => exact ⟨_, _, scalar_of_single hstyle, by decide⟩
  | double => exact ⟨_, _, scalar_of_double hstyle, by decide⟩

theorem opens_scalar (fold : Fold) (column : Nat) (s : String) (tail : List Char) :
    Opens (scalar fold column s ++ tail) := by
  obtain ⟨c, rest, hcons, hopens⟩ := scalar_cons fold column s
  intro d hd
  rw [hcons, List.cons_append, List.head?_cons, Option.some.injEq] at hd
  exact hd ▸ hopens

end Writer

namespace Scan

variable {s : Scan} {a : Stand} {p : Position}

/-! ## Tokens by their first character -/

theorem divides_eq_false (h : s.position.column = 0 → atDivider s.rest = false) :
    (s.position.column == 0 && isDivider '-' s.rest) = false ∧
      (s.position.column == 0 && isDivider '.' s.rest) = false := by
  by_cases hcolumn : s.position.column = 0
  · have hdivider := h hcolumn
    rw [atDivider, Bool.or_eq_false_iff] at hdivider
    simp [hdivider]
  · simp [hcolumn]

theorem token_plain {c : Char} {rest : List Char} (hflow : s.inFlow = false)
    (hgap : isGap c = false) (hopening : isOpening c = false)
    (hdivider : s.position.column = 0 → atDivider s.rest = false)
    (hsign : c = '-' ∨ c = '?' ∨ c = ':' → endsAt isGap rest = false) :
    s.token c rest = s.plainScalar := by
  have hfirst := divides_eq_false hdivider
  simp [isOpening] at hopening
  by_cases hc : c = '-' ∨ c = '?' ∨ c = ':'
  · have hrest := hsign hc
    have hopens : s.opensPlain c rest = true := by
      simp only [opensPlain, hrest, hflow]
      rcases hc with rfl | rfl | rfl <;> decide
    simp [token, hfirst, hflow, hrest, hopens, hopening]
  · simp only [not_or] at hc
    have hopens : s.opensPlain c rest = true := by
      simp [opensPlain, hgap, isIndicator, hopening, hc]
    simp [token, hfirst, hopens, hopening, hc]

theorem token_single {rest : List Char}
    (hdivider : s.position.column = 0 → atDivider s.rest = false) :
    s.token '\x27' rest = s.node 1 (Quoted.scan false (.text .none) []) (.scalar · false) := by
  simp [token, divides_eq_false hdivider]

theorem token_double {rest : List Char}
    (hdivider : s.position.column = 0 → atDivider s.rest = false) :
    s.token '"' rest = s.node 1 (Quoted.scan true (.text .none) []) (.scalar · false) := by
  simp [token, divides_eq_false hdivider]

theorem token_colon {rest : List Char} (hrest : s.rest = ':' :: rest)
    (hgap : endsAt isGap rest = true) : s.token ':' rest = s.mappingValue := by
  have hdivider : atDivider s.rest = false := by
    rw [hrest]
    exact atDivider_of_head (by decide) (by decide) rest
  simp [token, divides_eq_false fun _ => hdivider, hgap]

/-- The signs that stand before a blank, with the block that they may open. -/
inductive Signals : Char → Token → Token → Prop where
  | entry : Signals '-' .blockSequenceStart .blockEntry
  | key : Signals '?' .blockMappingStart .key
  | value : Signals ':' .blockMappingStart .value

/-- The point with a block opened there, if none stands there yet. -/
def Stand.opened (a : Stand) (start : Token) : Stand :=
  if a.indents.head?.all (fun column => decide (column < a.column)) then
    { a with indents := a.column :: a.indents, tokens := start :: a.tokens }
  else a

theorem Stand.closed_of_head {more : List Nat} (h : a.indents = a.column :: more) :
    a.closed = a := by
  refine closed_eq_self fun column hcolumn => ?_
  rw [h, List.head?_cons, Option.some.injEq] at hcolumn
  exact Nat.le_of_eq hcolumn.symm

theorem Stand.opened_of_head {more : List Nat} {start : Token} (h : a.indents = a.column :: more) :
    a.opened start = a := by
  simp [opened, h]

theorem openBlock_scan {start : Token} (hp : p.column = a.column) :
    (a.scan p).openBlock start = (a.opened start).scan p := by
  simp only [openBlock, isDeeper, Stand.opened, Stand.scan, hp]
  split <;> rfl

theorem take_one {c : Char} {rest : List Char} {token : Token} (h : s.rest = c :: rest) :
    s.take 1 token =
      { s with rest, position := s.position.advance c, tokens := token :: s.tokens } := by
  have hdrop : s.rest.drop 1 = rest := by rw [h]; rfl
  have hmove : s.moveTo rest = _ := moveTo_append (show s.rest = [c] ++ rest from h)
  rw [take, hdrop, hmove]
  rfl

theorem token_signal {c : Char} {start token : Token} (h : Signals c start token)
    {rest : List Char} (hrest : a.rest = c :: ' ' :: rest) (hallowed : a.keyAllowed = true)
    (hp : p.column = a.column) :
    (a.scan p).token c (' ' :: rest) =
      .ok { ((a.opened start).scan p).take 1 token with keyAllowed := true } := by
  have hdivider : atDivider (a.scan p).rest = false := by
    show atDivider a.rest = false
    rw [hrest]
    cases rest <;> simp [atDivider, isDivider]
  have hfirst := divides_eq_false fun _ => hdivider
  have hflow : (a.scan p).inFlow = false := rfl
  have hkey : (a.scan p).keyAllowed = true := hallowed
  have happart : endsAt isGap (' ' :: rest) = true := rfl
  have hdrop (b : Stand) : (b.scan p).dropPending = .ok (b.scan p) := rfl
  cases h with
  | entry =>
      simp only [token, hfirst, happart, hflow, hkey, blockEntry, openBlock_scan hp]
      simp [hdrop, bind, Except.bind, pure, Except.pure]
  | key =>
      simp only [token, hfirst, happart, hflow, hkey, explicitKey, openBlock_scan hp]
      simp [hdrop, bind, Except.bind, pure, Except.pure]
      rfl
  | value =>
      have hnone : (a.scan p).pending = none := rfl
      simp only [token, hfirst, happart, hflow, hkey, mappingValue, hnone, openBlock_scan hp]
      simp [pure, Except.pure]
      rfl

/-- A sign before a blank takes a scan to what stands behind the blank. -/
theorem Reaches.past_signal {c : Char} {start token : Token} {rest : List Char}
    (hsignal : Signals c start token) (h : Reaches s a) (hrest : a.rest = c :: ' ' :: rest)
    (hallowed : a.keyAllowed = true) (hopens : Opens rest) :
    Reaches s
      { rest, column := a.column + 2, indents := (a.closed.opened start).indents,
        tokens := token :: (a.closed.opened start).tokens } := by
  refine h.token hrest fun p hp => ?_
  have hvisible : isVisible c = true := by cases hsignal <;> rfl
  refine ⟨_, token_signal hsignal hrest hallowed hp, ?_⟩
  have hopened : ((a.closed.opened start).scan p).rest = c :: ' ' :: rest := by
    show (a.closed.opened start).rest = _
    rw [Stand.opened]
    split <;> exact hrest
  rw [take_one hopened, Position.advance_of_isVisible hvisible]
  refine ⟨Nat.le_refl _, ?_⟩
  refine stands_behind_blank rfl rfl rfl hopens ?_
  show p.column + 1 + 1 = a.column + 2
  rw [hp]

/-! ## Scalars -/

/-- The key that may begin at a point. -/
def Stand.pendingAt (a : Stand) (p : Position) : Option PendingKey :=
  if a.keyAllowed then
    some { token := a.tokens.length, required := a.indents.head? == some p.column, position := p }
  else none

/-- The state of a scan at a point, with the key that may begin there. -/
def Stand.saved (a : Stand) (p : Position) : Scan := { a.scan p with pending := a.pendingAt p }

theorem savePending_scan : (a.scan p).savePending = .ok (a.saved p) := by
  cases hallowed : a.keyAllowed <;>
    simp [savePending, Stand.saved, Stand.scan, Stand.pendingAt, hallowed, dropPending, inFlow,
      bind, Except.bind, pure, Except.pure]

/-- The state behind a scalar that begins at a point. -/
def Stand.behind (a : Stand) (p : Position) (text : String) (rest : List Char)
    (keyAllowed : Bool) : Scan :=
  { ((a.saved p).moveTo rest).push (scalarToken text) with keyAllowed }

/-- The least indentation of the lines of a plain scalar. -/
def Stand.least (a : Stand) : Nat := a.indents.head?.elim 0 (· + 1)

theorem plainScalar_scan {text : String} {rest : List Char} {crossed : Bool}
    (hplain : isPlain text = true)
    (h : Plain.scan false a.least [] .none 0 a.rest = { text, rest, crossed }) :
    (a.scan p).plainScalar = .ok (a.behind p text rest crossed) := by
  have hread : Plain.scan (a.saved p).inFlow ((a.saved p).indents.head?.elim 0 (· + 1)) [] .none 0
      (a.saved p).rest = { text, rest, crossed } := h
  rw [plainScalar, savePending_scan]
  simp only [bind, Except.bind, hread, Stand.behind, scalarToken, hplain]
  rfl

theorem node_scan {double : Bool} {text : String} {rest : List Char}
    (hquoted : isPlain text = false)
    (h : Quoted.scan double (.text .none) [] (a.rest.drop 1) = .ok (text, rest)) :
    (a.scan p).node 1 (Quoted.scan double (.text .none) []) (.scalar · false) =
      .ok (a.behind p text rest false) := by
  have hread : Quoted.scan double (.text .none) [] ((a.saved p).rest.drop 1) = .ok (text, rest) := h
  rw [node, savePending_scan]
  simp only [bind, Except.bind, hread, Stand.behind, scalarToken, hquoted]
  rfl

section Read

variable {fold : Fold} {column least : Nat} {text : String} {tail behind : List Char}
  {crossed : Bool}

theorem scan_written_plain (hstyle : style text = .plain)
    (hfold : ∀ k, fold = some k → least ≤ k ∧ 0 < k ∧ k < width)
    (hend : ∀ read column, Plain.scan false least read .none column tail =
      { text := String.ofList read.reverse, rest := behind, crossed }) :
    Plain.scan false least [] .none 0 (scalar fold column text ++ tail) =
      { text, rest := behind, crossed } := by
  obtain ⟨hplain, -⟩ := style_plain hstyle
  rw [scalar_of_plain hstyle]
  cases htext : text.toList with
  | nil =>
      rw [htext] at hplain
      cases hplain
  | cons c more =>
      rw [htext] at hplain
      obtain ⟨-, hlast, -, -, hsteady⟩ := allowsPlain_cons hplain
      rw [Plain.scan_plain (fun k hk => ⟨(hfold k hk).2.1, (hfold k hk).1⟩)
        (List.cons_ne_nil c more) (isVisible_of_allowsPlain hplain) hlast hsteady (by simp) .none,
        hend, ← htext]
      simp [Gap.text]

theorem scan_written_single (hstyle : style text = .single)
    (hfold : ∀ k, fold = some k → least ≤ k ∧ 0 < k ∧ k < width)
    (hbreaks : '\n' ∈ text.toList → fold.isSome = true) (htail : tail.head? ≠ some '\x27') :
    Quoted.scan false (.text .none) [] ((scalar fold column text ++ tail).drop 1) =
      .ok (text, tail) := by
  have hallows := style_single hstyle
  have htight : isTight text.toList = true := by
    rw [allowsSingle, Bool.and_eq_true] at hallows
    exact hallows.2
  have hindent : '\n' ∈ text.toList → 0 < fold.getD 0 := by
    intro hbreak
    obtain ⟨k, hk⟩ := Option.isSome_iff_exists.mp (hbreaks hbreak)
    rw [hk]
    exact (hfold k hk).2.1
  rw [scalar_of_single hstyle, List.cons_append, List.drop_one, List.tail_cons, List.append_assoc,
    List.singleton_append, Quoted.scan_single (fun k hk => (hfold k hk).2.1) hindent
      (isVisible_of_allowsSingle hallows) htight .none htail]
  simp [Gap.text]

theorem scan_written_double (hstyle : style text = .double)
    (hfold : ∀ k, fold = some k → least ≤ k ∧ 0 < k ∧ k < width) :
    Quoted.scan true (.text .none) [] ((scalar fold column text ++ tail).drop 1) =
      .ok (text, tail) := by
  rw [scalar_of_double hstyle, List.cons_append, List.drop_one, List.tail_cons, List.append_assoc,
    List.singleton_append,
    Quoted.scan_double (fun k hk => (hfold k hk).2) (Nat.le_refl _) .none]
  simp [Gap.text]

/-- A scalar is read as its text.  Behind a plain one the scan stands where the text ends for the
reader of plain scalars, behind another one at its closing quote. -/
theorem token_scalar {rest : List Char} {c : Char}
    (hrest : a.rest = scalar fold column text ++ tail) (hcons : a.rest = c :: rest)
    (hdivider : p.column = 0 → atDivider a.rest = false)
    (hfold : ∀ k, fold = some k → a.least ≤ k ∧ 0 < k ∧ k < width)
    (hbreaks : '\n' ∈ text.toList → fold.isSome = true) (htail : tail.head? ≠ some '\x27')
    (hend : ∀ read column, Plain.scan false a.least read .none column tail =
      { text := String.ofList read.reverse, rest := behind, crossed }) :
    (a.scan p).token c rest = .ok (a.behind p text (if isPlain text then behind else tail)
      (isPlain text && crossed)) := by
  cases hstyle : style text with
  | plain =>
      have hisPlain : isPlain text = true := by simp [isPlain, hstyle]
      have hread : Plain.scan false a.least [] .none 0 a.rest =
          { text, rest := behind, crossed } := by
        rw [hrest]
        exact scan_written_plain hstyle hfold hend
      obtain ⟨hplain, -⟩ := style_plain hstyle
      cases htext : text.toList with
      | nil =>
          rw [htext] at hplain
          cases hplain
      | cons d more =>
          rw [htext] at hplain
          obtain ⟨hspace, -, hopening, -, -⟩ := allowsPlain_cons hplain
          rw [scalar_of_plain hstyle, htext, Plain.plain_cons hspace, List.cons_append, hcons,
            List.cons.injEq] at hrest
          obtain ⟨rfl, rfl⟩ := hrest
          have hgap : isGap c = false := by
            rw [isGap_of_isVisible (isVisible_of_allowsPlain hplain c List.mem_cons_self)]
            simp [hspace]
          rw [token_plain rfl hgap hopening hdivider fun hc => endsAt_plain hplain hc _ _ _,
            plainScalar_scan hisPlain hread, hisPlain, if_pos rfl, Bool.true_and]
  | single =>
      have hquoted : isPlain text = false := by simp [isPlain, hstyle]
      have hread : Quoted.scan false (.text .none) [] (a.rest.drop 1) = .ok (text, tail) := by
        rw [hrest]
        exact scan_written_single hstyle hfold hbreaks htail
      rw [scalar_of_single hstyle, List.cons_append, hcons, List.cons.injEq] at hrest
      obtain ⟨rfl, -⟩ := hrest
      rw [token_single hdivider, node_scan hquoted hread, hquoted, Bool.false_and]
      rfl
  | double =>
      have hquoted : isPlain text = false := by simp [isPlain, hstyle]
      have hread : Quoted.scan true (.text .none) [] (a.rest.drop 1) = .ok (text, tail) := by
        rw [hrest]
        exact scan_written_double hstyle hfold
      rw [scalar_of_double hstyle, List.cons_append, hcons, List.cons.injEq] at hrest
      obtain ⟨rfl, -⟩ := hrest
      rw [token_double hdivider, node_scan hquoted hread, hquoted, Bool.false_and]
      rfl

end Read

theorem behind_eq {text : String} {passed rest : List Char} {keyAllowed : Bool}
    (h : a.rest = passed ++ rest) :
    a.behind p text rest keyAllowed =
      { rest, position := passed.foldl Position.advance p, indents := a.indents, keyAllowed,
        pending := a.pendingAt p, tokens := scalarToken text :: a.tokens } := by
  have hmove : (a.saved p).moveTo rest = _ := moveTo_append (show (a.saved p).rest = _ from h)
  rw [Stand.behind, hmove]
  rfl

/-- A scalar that ends its line takes a scan to the next line, if that one is indented no more than
the block. -/
theorem Reaches.past_scalar {k column least : Nat} {more : List Nat} {text : String}
    {next : List Char}
    (h : Reaches s a) (hrest : a.rest = scalar (some k) column text ++ '\n' :: next)
    (hindents : a.indents = least :: more) (hcolumn : least < a.column) (hk : least < k)
    (hwidth : k < width) (hnext : IsLine next) (hmargin : marginOf next ≤ least) :
    Reaches s (.line next a.indents (scalarToken text :: a.tokens)) := by
  obtain ⟨c, written, hwritten, -⟩ := scalar_cons (some k) column text
  have hcons : a.rest = c :: (written ++ '\n' :: next) := by rw [hrest, hwritten]; rfl
  have hleast : a.least = least + 1 := by rw [Stand.least, hindents]; rfl
  have hclosed : a.closed = a := by
    refine Stand.closed_eq_self fun column hhead => ?_
    rw [hindents, List.head?_cons, Option.some.injEq] at hhead
    omega
  refine h.token hcons fun p hp => ?_
  have hend (read : List Char) (column : Nat) :
      Plain.scan false a.least read .none column ('\n' :: next) =
        { text := String.ofList read.reverse, rest := afterMargin next, crossed := true } :=
    Plain.scan_outdent (by omega) hnext
  have htoken := token_scalar hrest hcons (p := p) (fun hzero => by omega)
    (fun k' hk' => by cases hk'; omega) (fun _ => rfl) (by simp) hend
  have hpending (key : PendingKey) (hkey : a.pendingAt p = some key) :
      key.required = false ∧ key.position = p := by
    rw [Stand.pendingAt] at hkey
    split at hkey
    · cases hkey
      refine ⟨?_, rfl⟩
      have hne : least ≠ p.column := by omega
      simp [hindents, hne]
    · cases hkey
  rw [hclosed]
  refine ⟨_, htoken, ?_⟩
  cases isPlain text with
  | true =>
      -- A plain scalar has taken the line break and the margin with it.
      have hpassed : a.rest =
          (scalar (some k) column text ++ '\n' :: List.replicate (marginOf next) ' ') ++
            afterMargin next := by
        rw [List.append_assoc, List.cons_append, replicate_marginOf, hrest]
      rw [if_pos rfl, behind_eq hpassed, List.foldl_append]
      refine ⟨?_, stands_at_line rfl ?_ hnext (.inr ⟨rfl, rfl, rfl⟩)⟩
      · have hlength := congrArg List.length (replicate_marginOf next)
        simp only [List.length_append, List.length_cons, List.length_replicate] at hlength ⊢
        omega
      · intro key hkey
        obtain ⟨hrequired, hposition⟩ := hpending key hkey
        exact ⟨hrequired, hposition ▸ Position.line_le_foldl_advance _⟩
  | false =>
      rw [if_neg Bool.false_ne_true, behind_eq hrest]
      refine ⟨by simp, stands_at_line rfl ?_ hnext (.inl ⟨rfl, rfl⟩)⟩
      intro key hkey
      obtain ⟨hrequired, hposition⟩ := hpending key hkey
      exact ⟨hrequired, hposition ▸ Position.line_le_foldl_advance _⟩

/-! ## Keys -/

/-- The written form of a key without line breaks stands on one line. -/
theorem isVisible_of_mem_key {column : Nat} {key : String} (hbreaks : '\n' ∉ key.toList) :
    ∀ c ∈ Writer.scalar none column key, isVisible c = true := by
  intro c hc
  rcases mem_scalar hc with hvisible | ⟨-, hfold | hbreak⟩
  · exact hvisible
  · cases hfold
  · exact absurd hbreak hbreaks

/-- The key that is pending at a point where one may begin. -/
def Stand.key (a : Stand) (p : Position) : PendingKey :=
  { token := a.tokens.length, required := a.indents.head? == some p.column, position := p }

/-- The state at the colon of a key that begins at a point and is written with `length`
characters. -/
def Stand.atColon (a : Stand) (p : Position) (key : String) (length : Nat) (tail : List Char) :
    Scan :=
  { rest := ':' :: tail,
    position := { p with index := p.index + length, column := p.column + length },
    indents := a.indents, keyAllowed := false, pending := some (a.key p),
    tokens := scalarToken key :: a.tokens }

/-- A key of one line, with its colon, stands at a point. -/
structure Stand.HasKey (a : Stand) (column : Nat) (key : String) (tail : List Char) : Prop where
  rest : a.rest = Writer.scalar none column key ++ ':' :: tail
  gap : endsAt isGap tail = true
  allowed : a.keyAllowed = true
  undivided : a.column = 0 → atDivider a.rest = false
  unbroken : '\n' ∉ key.toList

/-- A key on one line with its value is taken for a scalar first, and stays pending. -/
theorem Reaches.colon {column : Nat} {key : String} {tail : List Char} (h : Reaches s a)
    (hkey : a.HasKey column key tail) :
    ∃ p : Position, p.column = a.column ∧
      Leads s (a.closed.atColon p key (scalar none column key).length tail) := by
  obtain ⟨c, written, hwritten, -⟩ := scalar_cons none column key
  have hrest : a.closed.rest = scalar none column key ++ ':' :: tail := hkey.rest
  have hcons : a.rest = c :: (written ++ ':' :: tail) := by rw [hkey.rest, hwritten]; rfl
  have hend (read : List Char) (column : Nat) :
      Plain.scan false a.closed.least read .none column (':' :: tail) =
        { text := String.ofList read.reverse, rest := ':' :: tail, crossed := false } :=
    Plain.scan_colon hkey.gap
  have hpending (p : Position) : a.closed.pendingAt p = some (a.closed.key p) := if_pos hkey.allowed
  have hcolon (p : Position) : a.closed.behind p key (':' :: tail) false =
      a.closed.atColon p key (scalar none column key).length tail := by
    rw [behind_eq hrest, hpending,
      Position.foldl_advance_of_isVisible (isVisible_of_mem_key hkey.unbroken)]
    rfl
  obtain ⟨next, hleads, p, hp, rfl⟩ : ∃ next, Leads s next ∧ ∃ p : Position, p.column = a.column ∧
      next = a.closed.atColon p key (scalar none column key).length tail := by
    refine h.token hcons fun p hp => ⟨_, ?_, ?_, p, hp, rfl⟩
    · have htoken := token_scalar (a := a.closed) (p := p) hrest hcons
        (fun hzero => hkey.undivided (by omega)) (fun k hk => by cases hk)
        (fun hmem => absurd hmem hkey.unbroken) (by simp) hend
      rw [htoken, Bool.and_false, ite_self, hcolon]
    · simp [Stand.atColon]
  exact ⟨p, hp, hleads⟩

section Colon

variable {key : String} {length : Nat} {tail : List Char}

theorem toNextToken_atColon :
    (a.atColon p key length tail).toNextToken = a.atColon p key length tail := by
  have hopens : Opens (':' :: tail) := by
    intro c hc
    rw [List.head?_cons, Option.some.injEq] at hc
    exact hc ▸ by decide
  simp only [toNextToken, Stand.atColon, skip_of_opens hopens]

theorem isStale_atColon :
    isStale (a.atColon p key length tail).position (a.key p) = decide (1024 < length) := by
  simp [isStale, Stand.atColon, Stand.key]

/-- A short key is still pending at its colon. -/
theorem dropStale_atColon (hlength : length ≤ 1024) :
    (a.atColon p key length tail).dropStale = .ok (a.atColon p key length tail) := by
  rw [dropStale_of_pending rfl rfl, isStale_atColon, decide_eq_false (by omega)]
  rfl

theorem insertAt_atColon (ts : List Token) :
    (a.atColon p key length tail).insertAt (a.key p) ts =
      { a.atColon p key length tail with
        tokens := scalarToken key :: (ts.reverse ++ a.tokens) } := by
  have hafter : (a.atColon p key length tail).tokens.length - (a.key p).token = 1 :=
    Nat.add_sub_cancel_left a.tokens.length 1
  rw [insertAt, hafter]
  rfl

theorem mappingValue_atColon (hp : p.column = a.column) :
    (a.atColon p key length tail).mappingValue = .ok
      { rest := tail,
        position := { p with index := p.index + length + 1, column := p.column + length + 1 },
        indents := (a.opened .blockMappingStart).indents, keyAllowed := false,
        tokens := .value :: scalarToken key :: .key :: (a.opened .blockMappingStart).tokens } := by
  have hpending : (a.atColon p key length tail).pending = some (a.key p) := rfl
  have hflow : (a.atColon p key length tail).inFlow = false := rfl
  have hdeeper : (a.atColon p key length tail).isDeeper (a.key p).position.column =
      a.indents.head?.all fun column => decide (column < a.column) := by
    rw [← hp]
    rfl
  have hadvance (q : Position) : q.advance ':' = _ := Position.advance_of_isVisible (by rfl)
  rw [mappingValue, hpending]
  simp only [hflow, hdeeper, insertAt_atColon, Stand.opened]
  rw [take_one rfl]
  cases a.indents.head?.all fun column => decide (column < a.column) with
  | true =>
      simp only [Stand.atColon, hadvance, pure, Except.pure, Bool.not_false, Bool.true_and, if_true]
      rw [← hp]
      rfl
  | false => simp [Stand.atColon, hadvance, pure, Except.pure]

/-- The colon takes a scan behind a key that is short enough. -/
theorem Leads.colon (hlength : length ≤ 1024) (htail : endsAt isGap tail = true)
    (hhead : ∀ column, a.indents.head? = some column → column ≤ a.column)
    (hp : p.column = a.column) :
    Leads (a.atColon p key length tail)
      { rest := tail,
        position := { p with index := p.index + length + 1, column := p.column + length + 1 },
        indents := (a.opened .blockMappingStart).indents, keyAllowed := false,
        tokens := .value :: scalarToken key :: .key :: (a.opened .blockMappingStart).tokens } := by
  have hfresh : (a.atColon p key length tail).toNextToken.dropStale =
      .ok (a.atColon p key length tail) := by
    rw [toNextToken_atColon, dropStale_atColon hlength]
  have hclose : ((a.atColon p key length tail).close fun column =>
      decide (column ≤ (a.atColon p key length tail).position.column)) =
        a.atColon p key length tail := by
    refine close_eq_self fun column hcolumn => decide_eq_true ?_
    have hle := hhead column hcolumn
    show column ≤ p.column + length
    omega
  refine Leads.token hfresh rfl ?_ (Nat.le_refl _)
  rw [hclose, token_colon rfl htail]
  exact mappingValue_atColon hp

/-- A key that is too long is no longer one at its colon, and the colon has no place there. -/
theorem run_atColon_too_long (hlength : 1024 < length) (htail : endsAt isGap tail = true)
    (n : Nat) :
    run (n + 1) (a.atColon p key length tail) = (a.tokens.reverse, some .malformed) := by
  have hsettled : (a.atColon p key length tail).settled = a.tokens.reverse := by
    simp [settled, Stand.atColon, Stand.key]
  have hstale : isStale (a.atColon p key length tail).position (a.key p) = true := by
    rw [isStale_atColon, decide_eq_true hlength]
  have hdrop : (a.atColon p key length tail).toNextToken.dropStale =
      if (a.key p).required then .error .malformed
      else .ok { a.atColon p key length tail with pending := none } := by
    rw [toNextToken_atColon, dropStale_of_pending rfl rfl, hstale]
    rfl
  cases hrequired : (a.key p).required with
  | true =>
      rw [hrequired, if_pos rfl] at hdrop
      rw [run, hdrop, hsettled]
  | false =>
      rw [hrequired, if_neg Bool.false_ne_true] at hdrop
      have hcolon (keeps : Nat → Bool) :
          ({ a.atColon p key length tail with pending := none }.close keeps).token ':' tail =
            .error .malformed := by
        rw [token_colon rfl htail]
        simp [mappingValue, close, Stand.atColon, inFlow]
      rw [run_succ_of_fault hdrop rfl (hcolon _), hsettled]

end Colon

section Key

variable {column : Nat} {key : String} {tail : List Char}

/-- A key that is short enough takes a scan behind its colon, with its mapping open. -/
theorem Reaches.past_key (h : Reaches s a) (hkey : a.HasKey column key tail)
    (hlength : (scalar none column key).length ≤ 1024) :
    ∃ q : Position, q.column = a.column + (scalar none column key).length + 1 ∧ Leads s
      { rest := tail, position := q, indents := (a.closed.opened .blockMappingStart).indents,
        keyAllowed := false,
        tokens := .value :: scalarToken key :: .key ::
          (a.closed.opened .blockMappingStart).tokens } := by
  obtain ⟨p, hp, hleads⟩ := h.colon hkey
  refine ⟨_, ?_, hleads.trans (.colon hlength hkey.gap (fun _ => Stand.head_closed_le) hp)⟩
  show p.column + _ + 1 = _
  rw [hp]

/-- The point at the value of a key. -/
theorem Reaches.past_key_blank {rest : List Char} (h : Reaches s a)
    (hkey : a.HasKey column key (' ' :: rest)) (hlength : (scalar none column key).length ≤ 1024)
    (hopens : Opens rest) :
    Reaches s
      { rest, column := a.column + (scalar none column key).length + 2, keyAllowed := false,
        indents := (a.closed.opened .blockMappingStart).indents,
        tokens := .value :: scalarToken key :: .key ::
          (a.closed.opened .blockMappingStart).tokens } := by
  obtain ⟨q, hq, hleads⟩ := h.past_key hkey hlength
  exact ⟨_, hleads, stands_behind_blank rfl rfl rfl hopens (congrArg (· + 1) hq)⟩

/-- The line under a key. -/
theorem Reaches.past_key_line {text : List Char} (h : Reaches s a)
    (hkey : a.HasKey column key ('\n' :: text)) (hlength : (scalar none column key).length ≤ 1024)
    (htext : IsLine text) :
    Reaches s (.line text (a.closed.opened .blockMappingStart).indents
      (.value :: scalarToken key :: .key :: (a.closed.opened .blockMappingStart).tokens)) := by
  obtain ⟨q, -, hleads⟩ := h.past_key hkey hlength
  exact ⟨_, hleads, stands_at_line rfl (by simp) htext (.inl ⟨rfl, rfl⟩)⟩

/-- A key that is too long ends the scan, with the tokens before it. -/
theorem Reaches.key_too_long (h : Reaches s a) (hkey : a.HasKey column key tail)
    (hlength : 1024 < (scalar none column key).length) :
    Ends s (a.closed.tokens.reverse, some .malformed) := by
  obtain ⟨p, -, hleads⟩ := h.colon hkey
  refine hleads.ends fun n hn => ?_
  obtain ⟨n, rfl⟩ := Nat.exists_eq_succ_of_ne_zero (by omega : n ≠ 0)
  exact run_atColon_too_long hlength hkey.gap n

end Key

/-! ## Empty brackets -/

/-- Brackets with their tokens. -/
inductive Brackets : Char → Char → Token → Token → Prop where
  | sequence : Brackets '[' ']' .flowSequenceStart .flowSequenceEnd
  | mapping : Brackets '\x7b' '\x7d' .flowMappingStart .flowMappingEnd

theorem token_open {o c : Char} {first last : Token} {rest : List Char}
    (h : Brackets o c first last) (hrest : s.rest = o :: rest) :
    s.token o rest = s.openFlow first := by
  have hdivider : atDivider s.rest = false := by
    rw [hrest]
    cases h <;> exact atDivider_of_head (by decide) (by decide) rest
  cases h <;> simp [token, divides_eq_false fun _ => hdivider]

theorem token_close {o c : Char} {first last : Token} {rest : List Char}
    (h : Brackets o c first last) (hrest : s.rest = c :: rest) :
    s.token c rest = s.closeFlow last := by
  have hdivider : atDivider s.rest = false := by
    rw [hrest]
    cases h <;> exact atDivider_of_head (by decide) (by decide) rest
  cases h <;> simp [token, divides_eq_false fun _ => hdivider]

/-- The state inside brackets that open at a point where no key may begin. -/
def Stand.inside (a : Stand) (p : Position) (first : Token) (rest : List Char) : Scan :=
  { rest, position := p, indents := a.indents, outer := [none], tokens := first :: a.tokens }

theorem openFlow_scan {o : Char} {first : Token} {rest : List Char} (hrest : a.rest = o :: rest)
    (hallowed : a.keyAllowed = false) :
    (a.scan p).openFlow first = .ok (a.inside (p.advance o) first rest) := by
  have hsaved : a.saved p = a.scan p := by simp [Stand.saved, Stand.pendingAt, hallowed, Stand.scan]
  have htake : (a.scan p).take 1 first = _ := take_one hrest
  rw [openFlow, savePending_scan, hsaved]
  simp only [bind, Except.bind, pure, Except.pure, htake]
  rfl

theorem dropStale_inside {first : Token} {rest : List Char} (hopens : Opens rest) :
    (a.inside p first rest).toNextToken.dropStale = .ok (a.inside p first rest) := by
  simp only [toNextToken, Stand.inside, skip_of_opens hopens]
  simp [dropStale, staleFault]

theorem closeFlow_inside {c : Char} {first last : Token} {rest : List Char} :
    (a.inside p first (c :: rest)).closeFlow last = .ok
      { rest, position := p.advance c, indents := a.indents, keyAllowed := false,
        tokens := last :: first :: a.tokens } := by
  have htake : (a.inside p first (c :: rest)).take 1 last = _ := take_one rfl
  simp only [closeFlow, htake]
  rfl

/-- Brackets with nothing in them take a scan to the next line. -/
theorem Reaches.past_brackets {o c : Char} {first last : Token} {next : List Char}
    (hbrackets : Brackets o c first last) (h : Reaches s a)
    (hrest : a.rest = o :: c :: '\n' :: next)
    (hallowed : a.keyAllowed = false)
    (hhead : ∀ column, a.indents.head? = some column → column ≤ a.column) (hnext : IsLine next) :
    Reaches s (.line next a.indents (last :: first :: a.tokens)) := by
  obtain ⟨inside, hleads, p, rfl⟩ : ∃ inside, Leads s inside ∧
      ∃ p, inside = a.inside p first (c :: '\n' :: next) := by
    refine h.token hrest fun p hp => ⟨_, ?_, Nat.le_refl _, p.advance o, rfl⟩
    rw [Stand.closed_eq_self hhead, token_open hbrackets hrest, openFlow_scan hrest hallowed]
  have hopens : Opens (c :: '\n' :: next) := by
    intro d hd
    rw [List.head?_cons, Option.some.injEq] at hd
    subst hd
    cases hbrackets <;> decide
  have hclose : Leads (a.inside p first (c :: '\n' :: next))
      { rest := '\n' :: next, position := p.advance c, indents := a.indents, keyAllowed := false,
        tokens := last :: first :: a.tokens } := by
    refine Leads.token (dropStale_inside hopens) rfl ?_ (Nat.le_refl _)
    show (a.inside p first (c :: '\n' :: next)).token c ('\n' :: next) = _
    rw [token_close hbrackets rfl, closeFlow_inside]
  exact ⟨_, hleads.trans hclose, stands_at_line rfl (by simp) hnext (.inl ⟨rfl, rfl⟩)⟩

end Scan
end Yaml
end Polyglot
