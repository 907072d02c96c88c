/-
What reading a text can stumble over on the way to its tokens.

Every reader goes on at a later part of the text it is given, and finds nothing wrong with it but
that it is malformed (`Advances`), with two exceptions: the number of a version can have more digits
than are counted (`Overcounts`), and an escape in a quoted scalar can ask for a character that does not
exist (`Overreaches`).  From the steps of a scan, `fault_scan` follows for the scan of a whole text.
-/
import Polyglot.Proofs.Yaml.Scan

namespace Polyglot
namespace Yaml

/-- A result is as `P` says, or a fault is as `E` says. -/
def Meets {α : Type} (P : α → Prop) (E : Fault → Prop) : Except Fault α → Prop
  | .ok a => P a
  | .error f => E f

theorem Meets.bind {α β : Type} {P : α → Prop} {Q : β → Prop} {E : Fault → Prop}
    {x : Except Fault α} {g : α → Except Fault β} (hx : Meets P E x)
    (hg : ∀ a, P a → Meets Q E (g a)) : Meets Q E (x >>= g) := by
  cases x with
  | error f => exact hx
  | ok a => exact hg a hx

theorem Meets.imp {α : Type} {P Q : α → Prop} {E F : Fault → Prop} {x : Except Fault α}
    (hx : Meets P E x) (hP : ∀ a, P a → Q a) (hE : ∀ f, E f → F f) : Meets Q F x := by
  cases x with
  | error f => exact hE f hx
  | ok a => exact hP a hx

/-- Somewhere in the text, a number has more digits than are counted. -/
def Property.Overcounts (s : List Char) (f : Fault) : Prop :=
  f = .versionTooLong ∧ ∃ digits after, digits ++ after <:+ s ∧
    (∀ c ∈ digits, c.isDigit = true) ∧ Numeral.maxDecimalDigits < digits.length

theorem Property.Overcounts.of_suffix {s t : List Char} {f : Fault} (h : Overcounts t f)
    (hts : t <:+ s) : Overcounts s f := by
  obtain ⟨hf, digits, after, hdigits, hrest⟩ := h
  exact ⟨hf, digits, after, hdigits.trans hts, hrest⟩

/-- A reader goes on at a later part of the text, finds it malformed, or finds a number in it too
long. -/
def Advances {α : Type} (s : List Char) (x : Except Fault (α × List Char)) : Prop :=
  Meets (fun r => r.2 <:+ s) (fun f => f = .malformed ∨ Property.Overcounts s f) x

theorem Advances.of_suffix {α : Type} {s t : List Char} {x : Except Fault (α × List Char)}
    (hx : Advances t x) (hts : t <:+ s) : Advances s x :=
  hx.imp (fun _ h => h.trans hts) fun _ h => h.imp id fun ho => ho.of_suffix hts

/-- A reader that goes on behind another. -/
theorem Advances.bind {α β : Type} {s : List Char} {x : Except Fault (α × List Char)}
    {g : α × List Char → Except Fault (β × List Char)} (hx : Advances s x)
    (hg : ∀ a rest, Advances rest (g (a, rest))) : Advances s (x >>= g) := by
  refine Meets.bind hx fun r hr => ?_
  exact (hg r.1 r.2).of_suffix hr

theorem advances_pure {α : Type} (a : α) (s : List Char) :
    Advances s (pure (a, s) : Except Fault (α × List Char)) := List.suffix_refl s

theorem advances_malformed {α : Type} (s : List Char) :
    Advances s (.error .malformed : Except Fault (α × List Char)) := .inl rfl

theorem suffix_comment (s : List Char) :
    (match s with
      | '#' :: _ => s.dropWhile fun c => !isBreak c
      | _ => s) <:+ s := by
  split
  · exact List.dropWhile_suffix _
  · exact List.suffix_refl s

/-- The end of a line, given what is made of the text behind it. -/
theorem meets_lineEnd {β : Type} (rest : List Char) (g : List Char → β) :
    Meets (fun b => ∃ after, after <:+ rest ∧ b = g after) (· = .malformed) (match rest with
      | [] => .ok (g [])
      | c :: rest => if isBreak c then .ok (g rest) else .error .malformed) := by
  split
  · exact ⟨[], List.nil_suffix, rfl⟩
  · split
    · exact ⟨_, List.suffix_cons _ _, rfl⟩
    · rfl

/-! ## Anchors, tags and directives -/

namespace Property

theorem advances_name (s : List Char) : Advances s (name s) := by
  rw [name]
  split
  · exact advances_malformed s
  · split
    · exact List.dropWhile_suffix _
    · exact advances_malformed s

theorem decode_fault {read : List Char} {bytes : List Nat} {f : Fault}
    (h : decode read bytes = .error f) : f = .malformed := by
  rw [decode] at h
  split at h
  · cases h
  · cases h
    rfl

theorem advances_uriEnd (read : List Char) (bytes : List Nat) (rest : List Char) :
    Advances rest (uriEnd read bytes rest) := by
  rw [uriEnd]
  cases h : decode read bytes with
  | error f => exact .inl (decode_fault h)
  | ok found =>
      show Advances rest (if found.isEmpty then _ else _)
      split
      · exact advances_malformed rest
      · exact advances_pure _ rest

theorem advances_uri (read : List Char) (bytes : List Nat) (s : List Char) :
    Advances s (uri read bytes s) := by
  fun_induction uri read bytes s with
  | case1 read bytes => exact advances_uriEnd read bytes []
  | case2 read bytes a b rest high low ha hb ih =>
      exact ih.of_suffix ⟨['%', a, b], rfl⟩
  | case3 => exact advances_malformed _
  | case4 => exact advances_malformed _
  | case5 read bytes c rest _ _ _ read' hdecode ih =>
      exact ih.of_suffix (List.suffix_cons c rest)
  | case6 read bytes c rest _ _ _ f hdecode => exact .inl (decode_fault hdecode)
  | case7 read bytes c rest => exact advances_uriEnd read bytes (c :: rest)

/-- A handle takes the sign it begins with. -/
theorem advances_handle (s : List Char) : Advances s.tail (handle s) := by
  rw [handle.eq_def]
  split
  · exact advances_pure _ _
  · rename_i rest _
    split
    · rename_i after h
      have hafter : '!' :: after <:+ rest := h ▸ List.dropWhile_suffix _
      exact (List.suffix_cons '!' after).trans hafter
    · exact advances_malformed _
  · exact advances_malformed _

theorem advances_closed {α : Type} (a : α) (rest : List Char) :
    Advances rest (if isClosed rest then pure (a, rest) else .error .malformed) := by
  split
  · exact advances_pure a rest
  · exact advances_malformed rest

theorem advances_tag (s : List Char) : Advances s (tag s) := by
  rw [tag.eq_def]
  split
  · rename_i rest
    refine Advances.of_suffix ?_ (List.suffix_cons '<' rest)
    refine (advances_uri [] [] rest).bind fun suffix rest => ?_
    split
    · rename_i h
      cases h
      exact (advances_closed _ _).of_suffix (List.suffix_cons '>' _)
    · exact advances_malformed rest
  · split
    · exact advances_closed _ s
    · extract_lets _ word finish
      have hfinish : ∀ handle rest, Advances rest (finish (handle, rest)) := by
        intro handle rest
        exact (advances_uri [] [] rest).bind fun _ rest => advances_closed _ rest
      split
      · exact (advances_handle ('!' :: s)).bind hfinish
      · exact hfinish "!" s

theorem advances_number (s : List Char) : Advances s (number s) := by
  rw [number]
  split
  · exact advances_malformed s
  · split
    · rename_i hlong
      exact .inr ⟨rfl, s.takeWhile Char.isDigit, s.dropWhile Char.isDigit,
        List.takeWhile_append_dropWhile ▸ List.suffix_refl s, fun c => List.mem_takeWhile_imp, hlong⟩
    · exact List.dropWhile_suffix _

theorem advances_version (s : List Char) : Advances s (version s) := by
  rw [version]
  refine Advances.of_suffix ?_ (List.dropWhile_suffix (· = ' '))
  refine (advances_number _).bind fun major rest => ?_
  dsimp only
  split
  · rename_i after
    refine Advances.of_suffix ?_ (List.suffix_cons '.' after)
    exact (advances_number after).bind fun _ rest => advances_closed _ rest
  · exact advances_malformed _

theorem advances_tagDirective (s : List Char) : Advances s (tagDirective s) := by
  rw [tagDirective]
  refine Advances.of_suffix ?_ ((List.tail_suffix _).trans (List.dropWhile_suffix (· = ' ')))
  refine (advances_handle _).bind fun handle rest => ?_
  dsimp only
  split
  · rename_i after
    refine Advances.of_suffix ?_
      ((List.dropWhile_suffix (· = ' ')).trans (List.suffix_cons ' ' after))
    exact (advances_uri [] [] _).bind fun _ rest => advances_closed _ rest
  · exact advances_malformed _

theorem advances_directive (s : List Char) : Advances s (directive s) := by
  rw [directive]
  extract_lets finish
  have hfinish : ∀ d rest, Advances rest (finish (d, rest)) := by
    intro d rest
    refine (meets_lineEnd _ (d, ·)).imp ?_ fun _ => .inl
    rintro _ ⟨after, hafter, rfl⟩
    exact (hafter.trans (suffix_comment _)).trans (List.dropWhile_suffix _)
  split
  · exact advances_malformed s
  · refine Advances.of_suffix ?_ (List.dropWhile_suffix isWord)
    split
    · exact (advances_version _).bind hfinish
    · split
      · exact (advances_tagDirective _).bind hfinish
      · exact (hfinish _ _).of_suffix (List.dropWhile_suffix _)

end Property

/-! ## Blocks -/

namespace Block

theorem meets_increment? {c : Char} {n : Except Fault Nat} (h : increment? c = some n) :
    Meets (fun _ => True) (· = .malformed) n := by
  rw [increment?] at h
  split at h
  · cases h
    rfl
  · split at h
    · cases h
      trivial
    · cases h

theorem advances_indicators (s : List Char) : Advances s (indicators s) := by
  rw [indicators.eq_def]
  split
  · exact advances_pure _ _
  · rename_i c rest
    have hrest : rest <:+ c :: rest := List.suffix_cons c rest
    have hnext {d : Char} {after : List Char} : after <:+ c :: d :: after := ⟨[c, d], rfl⟩
    split
    · split
      · split
        · rename_i n hn
          exact Meets.bind ((meets_increment? hn).imp (fun _ h => h) fun _ => .inl) fun _ _ => hnext
        · exact hrest
      · exact hrest
    · rename_i n _ hn
      refine Meets.bind ((meets_increment? hn).imp (fun _ h => h) fun _ => .inl) fun n _ => ?_
      split
      · split
        · exact hnext
        · exact hrest
      · exact hrest
    · exact advances_pure _ _

theorem meets_headerLine (s : List Char) : Meets (· <:+ s) (· = .malformed) (headerLine s) := by
  rw [headerLine]
  split
  · rfl
  · refine (meets_lineEnd _ id).imp ?_ fun _ h => h
    rintro _ ⟨after, hafter, rfl⟩
    exact (hafter.trans (suffix_comment _)).trans (List.dropWhile_suffix _)

theorem suffix_lines (folded : Bool) (chomping : Chomping) (indent : Nat) (mode : Mode)
    (read s : List Char) : (lines folded chomping indent mode read s).2 <:+ s := by
  induction s generalizing mode read with
  | nil => exact List.suffix_refl []
  | cons c rest ih =>
      have hstep (mode : Mode) (read : List Char) :
          (lines folded chomping indent mode read rest).2 <:+ c :: rest :=
        (ih mode read).trans (List.suffix_cons c rest)
      rw [lines.eq_def]
      simp only
      split
      · split
        · exact hstep _ _
        · exact hstep _ _
      · split
        · exact hstep _ _
        · split
          · exact hstep _ _
          · split
            · exact hstep _ _
            · exact List.suffix_refl _

theorem suffix_margin (breaks : List Char) (column widest : Nat) (s : List Char) :
    (margin breaks column widest s).rest <:+ s := by
  induction s generalizing breaks column widest with
  | nil => exact List.suffix_refl []
  | cons c rest ih =>
      rw [margin]
      split
      · exact (ih _ _ _).trans (List.suffix_cons c rest)
      · split
        · exact (ih _ _ _).trans (List.suffix_cons c rest)
        · exact List.suffix_refl _

theorem advances_scan (folded : Bool) (least : Nat) (s : List Char) :
    Advances s (scan folded least s) := by
  rw [scan]
  refine (advances_indicators s).bind fun header rest => ?_
  refine Meets.bind ((meets_headerLine rest).imp (fun _ h => h) fun _ => .inl) fun after hafter => ?_
  split
  · exact (suffix_lines _ _ _ _ _ _).trans hafter
  · exact ((suffix_lines _ _ _ _ _ _).trans (suffix_margin _ _ _ _)).trans hafter

end Block

/-! ## Characters by their codes -/

namespace Quoted

/-- The number that hexadecimal digits stand for behind others. -/
def codeOf? (value : Nat) : List Char → Option Nat
  | [] => some value
  | c :: rest => (hexValue? c).bind fun digit => codeOf? (value * 16 + digit) rest

/-- Somewhere in the text, an escape of eight digits gives a character by a code that has none. -/
def Overreaches (s : List Char) (f : Fault) : Prop :=
  ∃ digits after code, '\\' :: 'U' :: (digits ++ after) <:+ s ∧ digits.length = 8 ∧
    codeOf? 0 digits = some code ∧ ofCode code = .error f

theorem Overreaches.of_suffix {s t : List Char} {f : Fault} (h : Overreaches t f) (hts : t <:+ s) :
    Overreaches s f := by
  obtain ⟨digits, after, code, hescape, hrest⟩ := h
  exact ⟨digits, after, code, hescape.trans hts, hrest⟩

theorem hexValue?_lt {c : Char} {digit : Nat} (h : hexValue? c = some digit) : digit < 16 := by
  simp only [hexValue?, Char.isDigit, Char.le_def, UInt32.le_iff_toNat_le] at h
  grind [Char.toNat]

theorem codeOf?_lt {value code : Nat} {digits : List Char} (h : codeOf? value digits = some code) :
    code < (value + 1) * 16 ^ digits.length := by
  induction digits generalizing value with
  | nil =>
      cases h
      simp
  | cons c rest ih =>
      rw [codeOf?, Option.bind_eq_some_iff] at h
      obtain ⟨digit, hdigit, hcode⟩ := h
      have hlt := hexValue?_lt hdigit
      calc code < (value * 16 + digit + 1) * 16 ^ rest.length := ih hcode
        _ ≤ ((value + 1) * 16) * 16 ^ rest.length := Nat.mul_le_mul_right _ (by omega)
        _ = (value + 1) * 16 ^ (c :: rest).length := by
          rw [List.length_cons, Nat.pow_succ', Nat.mul_assoc]

theorem lt_of_ofCode_error {code : Nat} {f : Fault} (h : ofCode code = .error f) : 0x10FFFF < code := by
  rw [ofCode] at h
  split at h
  · omega
  · split at h
    · assumption
    · split at h <;> cases h

/-- Only the escape with eight digits reaches codes that no character has. -/
theorem codeLength?_cases {c : Char} {length : Nat} (h : codeLength? c = some length) :
    length ≤ 4 ∧ 0 < length ∨ length = 8 ∧ c = 'U' := by
  rw [codeLength?.eq_def] at h
  split at h <;> cases h <;> decide

/-- The digits that a code still wants, at least one, give it a number that no character has. -/
def EndsTooHigh (left value : Nat) (s : List Char) (f : Fault) : Prop :=
  ∃ digits after code, s = digits ++ after ∧ digits.length = max 1 left ∧
    codeOf? value digits = some code ∧ ofCode code = .error f

theorem EndsTooHigh.cons {c : Char} {digit left value : Nat} {rest : List Char} {f : Fault}
    (hdigit : hexValue? c = some digit) (hleft : 1 < left)
    (h : EndsTooHigh (left - 1) (value * 16 + digit) rest f) :
    EndsTooHigh left value (c :: rest) f := by
  obtain ⟨digits, after, code, rfl, hlength, hcode, hfault⟩ := h
  refine ⟨c :: digits, after, code, rfl, ?_, ?_, hfault⟩
  · rw [List.length_cons]
    omega
  · rw [codeOf?, hdigit]
    exact hcode

/-- An escape that ends in a code too high is one of eight digits. -/
theorem EndsTooHigh.overreaches {c : Char} {length : Nat} {rest : List Char} {f : Fault}
    (hlength : codeLength? c = some length) (h : EndsTooHigh length 0 rest f) :
    Overreaches ('\\' :: c :: rest) f := by
  obtain ⟨digits, after, code, rfl, hdigits, hcode, hfault⟩ := h
  have hhigh := lt_of_ofCode_error hfault
  have hlow := codeOf?_lt hcode
  rcases codeLength?_cases hlength with ⟨hshort, hpos⟩ | ⟨rfl, rfl⟩
  · have hpow : 16 ^ digits.length ≤ 16 ^ 4 := Nat.pow_le_pow_right (by decide) (by omega)
    omega
  · exact ⟨digits, after, code, List.suffix_refl _, hdigits, hcode, hfault⟩

/-- What is wrong with the text that is left in a mode, if it is not malformed. -/
def Mode.Wrong (s : List Char) (f : Fault) : Mode → Prop
  | .code left value => EndsTooHigh left value s f ∨ Overreaches s f
  | .escape => Overreaches ('\\' :: s) f
  | _ => Overreaches s f

theorem meets_scan (double : Bool) (mode : Mode) (read s : List Char) :
    Meets (fun r => r.2 <:+ s) (fun f => f = .malformed ∨ mode.Wrong s f)
      (scan double mode read s) := by
  induction s generalizing mode read with
  | nil =>
      rw [scan.eq_def]
      simp only
      split
      · exact List.suffix_refl []
      · exact .inl rfl
  | cons c rest ih =>
      have hstep {next : Mode} (read : List Char)
          (hnext : ∀ f, next.Wrong rest f → mode.Wrong (c :: rest) f) :
          Meets (fun r => r.2 <:+ c :: rest) (fun f => f = .malformed ∨ mode.Wrong (c :: rest) f)
            (scan double next read rest) :=
        (ih next read).imp (fun _ h => h.trans (List.suffix_cons c rest))
          fun f h => h.imp id (hnext f)
      have hlater (f : Fault) (h : Overreaches rest f) : Overreaches (c :: rest) f :=
        h.of_suffix (List.suffix_cons c rest)
      rw [scan.eq_def]
      cases mode with
      | quote =>
          simp only
          split
          · exact hstep _ hlater
          · exact List.suffix_refl _
      | escape =>
          have hescape (f : Fault) (h : Overreaches rest f) : Overreaches ('\\' :: c :: rest) f :=
            h.of_suffix ⟨['\\', c], rfl⟩
          simp only
          split
          · exact hstep _ hescape
          · rename_i length _ hlength
            refine hstep _ fun f h => ?_
            rcases h with hcode | hrest
            · exact hcode.overreaches hlength
            · exact hescape f hrest
          · split
            · exact hstep _ hescape
            · exact .inl rfl
      | code left value =>
          simp only
          split
          · exact .inl rfl
          · rename_i digit hdigit
            split
            · rename_i hleft
              split
              · exact hstep _ fun f h => .inr (hlater f h)
              · rename_i fault hfault
                refine .inr (.inl ⟨[c], rest, _, rfl, ?_, ?_, hfault⟩)
                · show 1 = max 1 left
                  omega
                · rw [codeOf?, hdigit]
                  rfl
            · rename_i hleft
              refine hstep _ fun f h => h.imp (fun hcode => ?_) (hlater f)
              exact hcode.cons hdigit (by omega)
      | text gap =>
          simp only
          split
          · exact hstep _ hlater
          · split
            · split
              · exact .inl rfl
              · exact hstep _ hlater
            · split
              · split
                · exact List.suffix_cons c rest
                · split
                  · rename_i hc
                    exact hstep _ fun f h => hc ▸ h
                  · exact hstep _ hlater
              · split
                · exact hstep _ hlater
                · exact hstep _ hlater

end Quoted

/-! ## Tokens -/

namespace Scan

open Property (Overcounts)
open Quoted (Overreaches)

/-- What a scan of the text can stumble over: it is malformed, has a number that is too long, or gives
a character by a code that has none. -/
def Trips (text : List Char) (f : Fault) : Prop :=
  f = .malformed ∨ Overcounts text f ∨ Overreaches text f

theorem Trips.of_suffix {s t : List Char} {f : Fault} (h : Trips t f) (hts : t <:+ s) : Trips s f :=
  h.imp id (Or.imp (fun ho => ho.of_suffix hts) fun ho => ho.of_suffix hts)

/-- A step of a scan goes on at a later part of the text, or stumbles over it. -/
def Proceeds (text : List Char) (x : Except Fault Scan) : Prop :=
  Meets (fun t => t.rest <:+ text) (Trips text) x

theorem Proceeds.of_suffix {s t : List Char} {x : Except Fault Scan} (hx : Proceeds t x)
    (hts : t <:+ s) : Proceeds s x :=
  hx.imp (fun _ h => h.trans hts) fun _ h => h.of_suffix hts

theorem Proceeds.bind {text : List Char} {x : Except Fault Scan} {g : Scan → Except Fault Scan}
    (hx : Proceeds text x) (hg : ∀ t, Proceeds t.rest (g t)) : Proceeds text (x >>= g) :=
  Meets.bind hx fun t ht => (hg t).of_suffix ht

theorem Proceeds.ite {text : List Char} {p : Prop} [Decidable p] {x y : Except Fault Scan}
    (hx : Proceeds text x) (hy : Proceeds text y) : Proceeds text (if p then x else y) := by
  split
  · exact hx
  · exact hy

theorem proceeds_malformed (text : List Char) : Proceeds text (.error .malformed) := .inl rfl

theorem proceeds_of_advances {α : Type} {text : List Char} {x : Except Fault (α × List Char)}
    {g : α × List Char → Except Fault Scan} (hx : Advances text x)
    (hg : ∀ a rest, Proceeds rest (g (a, rest))) : Proceeds text (x >>= g) :=
  Meets.bind (hx.imp (fun _ h => h) fun _ h => h.imp id .inl) fun r hr => (hg r.1 r.2).of_suffix hr

variable (s : Scan)

theorem proceeds_dropPending : Proceeds s.rest s.dropPending := by
  rw [dropPending.eq_def]
  split
  · exact proceeds_malformed _
  · exact List.suffix_refl s.rest

theorem proceeds_savePending : Proceeds s.rest s.savePending := by
  rw [savePending]
  split
  · exact s.proceeds_dropPending.bind fun t => List.suffix_refl t.rest
  · exact List.suffix_refl s.rest

theorem proceeds_dropStale : Proceeds s.rest s.dropStale := by
  rw [dropStale]
  split
  · exact proceeds_malformed _
  · exact List.suffix_refl s.rest

theorem rest_close (keeps : Nat → Bool) : (s.close keeps).rest = s.rest := by
  rw [close]
  split <;> rfl

theorem rest_openBlock (t : Token) : (s.openBlock t).rest = s.rest := by
  rw [openBlock]
  split <;> rfl

theorem suffix_plain (flow : Bool) (indent : Nat) (read : List Char) (gap : Gap) (column : Nat)
    (text : List Char) : (Plain.scan flow indent read gap column text).rest <:+ text := by
  induction text generalizing read gap column with
  | nil => exact List.suffix_refl []
  | cons c rest ih =>
      have hstep (read : List Char) (gap : Gap) (column : Nat) :
          (Plain.scan flow indent read gap column rest).rest <:+ c :: rest :=
        (ih read gap column).trans (List.suffix_cons c rest)
      -- the condition for the end of the scalar holds matches of its own
      have hif {p : Prop} [Decidable p] {x y : Plain.Result} (hx : x.rest <:+ c :: rest)
          (hy : y.rest <:+ c :: rest) : (if p then x else y).rest <:+ c :: rest := by
        split
        · exact hx
        · exact hy
      rw [Plain.scan.eq_def]
      refine hif (hstep _ _ _) (hif (hif ?_ (hstep _ _ _)) (hif ?_ (hstep _ _ _)))
      · exact List.suffix_cons c rest
      · exact List.suffix_refl (c :: rest)

theorem proceeds_between : Proceeds s.rest s.between := by
  rw [between]
  refine Proceeds.bind ?_ fun t => List.suffix_refl t.rest
  rw [← s.rest_close fun _ => false]
  exact proceeds_dropPending _

theorem proceeds_openFlow (t : Token) : Proceeds s.rest (s.openFlow t) :=
  s.proceeds_savePending.bind fun t => List.drop_suffix 1 t.rest

theorem proceeds_closeFlow (t : Token) : Proceeds s.rest (s.closeFlow t) := by
  rw [closeFlow.eq_def]
  split
  · exact proceeds_malformed _
  · exact List.drop_suffix 1 s.rest

theorem proceeds_flowEntry : Proceeds s.rest s.flowEntry :=
  s.proceeds_dropPending.bind fun t => List.drop_suffix 1 t.rest

theorem suffix_opened (t : Token) : (if s.inFlow then s else s.openBlock t).rest <:+ s.rest := by
  split
  · exact List.suffix_refl s.rest
  · exact s.rest_openBlock t ▸ List.suffix_refl (s.openBlock t).rest

theorem proceeds_blockEntry : Proceeds s.rest s.blockEntry := by
  rw [blockEntry]
  split
  · exact proceeds_malformed _
  · refine Proceeds.of_suffix ?_ (s.suffix_opened .blockSequenceStart)
    exact (proceeds_dropPending _).bind fun t => List.drop_suffix 1 t.rest

theorem proceeds_explicitKey : Proceeds s.rest s.explicitKey := by
  rw [explicitKey]
  split
  · exact proceeds_malformed _
  · refine Proceeds.of_suffix ?_ (s.suffix_opened .blockMappingStart)
    exact (proceeds_dropPending _).bind fun t => List.drop_suffix 1 t.rest

theorem proceeds_mappingValue : Proceeds s.rest s.mappingValue := by
  rw [mappingValue.eq_def]
  split
  · exact List.drop_suffix 1 s.rest
  · extract_lets finish
    split
    · exact proceeds_malformed _
    · exact (List.drop_suffix 1 _).trans (s.suffix_opened .blockMappingStart)

theorem proceeds_node {α : Type} (n : Nat) {reader : List Char → Except Fault (α × List Char)}
    (token : α → Token)
    (h : ∀ text, Meets (fun r => r.2 <:+ text) (Trips text) (reader text)) : Proceeds s.rest (s.node n reader token) := by
  refine s.proceeds_savePending.bind fun t => ?_
  refine Proceeds.of_suffix ?_ (List.drop_suffix n t.rest)
  exact Meets.bind (h _) fun r hr => hr

theorem proceeds_blockScalar (folded : Bool) : Proceeds s.rest (s.blockScalar folded) := by
  refine s.proceeds_dropPending.bind fun t => ?_
  refine Proceeds.of_suffix ?_ (List.drop_suffix 1 t.rest)
  exact proceeds_of_advances (Block.advances_scan _ _ _) fun text rest => List.suffix_refl rest

theorem proceeds_plainScalar : Proceeds s.rest s.plainScalar :=
  s.proceeds_savePending.bind fun t => suffix_plain _ _ _ _ _ t.rest

theorem proceeds_reader {α : Type} {reader : List Char → Except Fault (α × List Char)}
    (h : ∀ text, Advances text (reader text)) (token : α → Token) :
    Proceeds s.rest (s.node 1 reader token) :=
  s.proceeds_node 1 token fun text => (h text).imp (fun _ hr => hr) fun _ hf => hf.imp id .inl

theorem proceeds_quoted (double : Bool) (token : String → Token) :
    Proceeds s.rest (s.node 1 (Quoted.scan double (.text .none) []) token) :=
  s.proceeds_node 1 token fun text =>
    (Quoted.meets_scan double (.text .none) [] text).imp (fun _ hr => hr) fun _ hf => hf.imp id .inr

theorem proceeds_token {c : Char} {rest : List Char} (h : rest <:+ s.rest) :
    Proceeds s.rest (s.token c rest) := by
  have hdivider (t : Token) : Proceeds s.rest (s.between >>= fun s => pure (s.take 3 t)) :=
    s.proceeds_between.bind fun t => List.drop_suffix 3 t.rest
  rw [token]
  -- the cases in the order in which the scanner asks for them
  refine .ite ?_ ?_
  · refine Meets.bind s.proceeds_between fun t _ => ?_
    refine Proceeds.of_suffix ?_ h
    exact proceeds_of_advances (Property.advances_directive rest) fun _ rest => List.suffix_refl rest
  refine .ite (hdivider _) (.ite (hdivider _) ?_)
  refine .ite (s.proceeds_openFlow _) (.ite (s.proceeds_openFlow _) ?_)
  refine .ite (s.proceeds_closeFlow _) (.ite (s.proceeds_closeFlow _) ?_)
  refine .ite s.proceeds_flowEntry (.ite s.proceeds_blockEntry ?_)
  refine .ite s.proceeds_explicitKey (.ite s.proceeds_mappingValue ?_)
  refine .ite (s.proceeds_reader Property.advances_name _) ?_
  refine .ite (s.proceeds_reader Property.advances_name _) ?_
  refine .ite (s.proceeds_reader Property.advances_tag _) ?_
  refine .ite (s.proceeds_blockScalar _) (.ite (s.proceeds_blockScalar _) ?_)
  refine .ite (s.proceeds_quoted _ _) (.ite (s.proceeds_quoted _ _) ?_)
  exact .ite s.proceeds_plainScalar (proceeds_malformed _)

/-- The text that is left only gets shorter, so what is wrong with it is wrong with the whole. -/
theorem fault_run (n : Nat) {f : Fault} (h : (run n s).2 = some f) :
    Trips s.rest f := by
  induction n generalizing s with
  | zero =>
      cases h
      exact .inl rfl
  | succ n ih =>
      have hfresh := s.toNextToken.proceeds_dropStale.of_suffix suffix_toNextToken
      rw [run] at h
      cases hstale : s.toNextToken.dropStale with
      | error fault =>
          rw [hstale] at h hfresh
          cases h
          exact hfresh
      | ok fresh =>
          rw [hstale] at h hfresh
          simp only at h
          split at h
          · have hlast := fresh.proceeds_between.of_suffix hfresh
            cases hbetween : fresh.between with
            | error fault =>
                rw [hbetween] at h hlast
                cases h
                exact hlast
            | ok last =>
                rw [hbetween] at h
                cases h
          · rename_i c rest hrest
            have hclosed := fresh.rest_close fun column => decide (column ≤ fresh.position.column)
            have htoken := Scan.proceeds_token (s := fresh.close _) (c := c)
              (hclosed.symm ▸ hrest ▸ List.suffix_cons c rest)
            rw [hclosed] at htoken
            cases hnext : (fresh.close _).token c rest with
            | error fault =>
                rw [hnext] at h htoken
                cases h
                exact htoken.of_suffix hfresh
            | ok next =>
                rw [hnext] at h htoken
                exact (ih next h).of_suffix (htoken.trans hfresh)

end Scan

/-- Beside malformed text, a scan only stumbles over a number too long and a code too high. -/
theorem fault_scan {text : List Char} {f : Fault} (h : (Token.scan text).2 = some f) :
    Scan.Trips text f := by
  rw [Token.scan.eq_def] at h
  split at h
  · rename_i rest
    exact (Scan.fault_run _ _ h).of_suffix (List.suffix_cons _ rest)
  · exact Scan.fault_run _ _ h

end Yaml
end Polyglot
