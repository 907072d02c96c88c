/-
The tokens of lists, tables and documents that are written.

A list stands at the column of its key and opens no block of its own; the entries of a table stand
two columns further right, and the first of them opens a block.  Each part is met at the beginning
of a line and left at the beginning of the line behind it, whatever stands there, as long as that
line is indented no further (`Outdents`).

A document is read to its end if every key that shares a line with its value is short enough
(`fitsLine`); otherwise the scan ends at the first key that is too long.
-/
import Polyglot.Proofs.Yaml.Tokens

namespace Polyglot
namespace Yaml

open Writer

namespace Writer

/-! ## Tokens -/

def itemTokens (item : String) : List Token := [.blockEntry, scalarToken item]

def keyTokens (key : String) : List Token := [.key, scalarToken key, .value]

def entryTokens (entry : String × String) : List Token :=
  keyTokens entry.1 ++ [scalarToken entry.2]

def listTokens (items : List String) : List Token :=
  if items.isEmpty then [.flowSequenceStart, .flowSequenceEnd] else items.flatMap itemTokens

def tableTokens (entries : Table String String) : List Token :=
  if entries.isEmpty then [.flowMappingStart, .flowMappingEnd]
  else .blockMappingStart :: entries.flatMap entryTokens ++ [.blockEnd]

/-- The tokens of the entries of a table that is not at its end. -/
def startTokens (entries : Table String String) : List Token :=
  if entries.isEmpty then [] else .blockMappingStart :: entries.flatMap entryTokens

theorem insertSorted_perm (entry : String × String) (t : Table String String) :
    (insertSorted entry t).Perm (entry :: t) := by
  induction t with
  | nil => exact .refl _
  | cons e rest ih =>
      rw [insertSorted]
      split
      · exact .refl _
      · exact (ih.cons e).trans (.swap entry e rest)

/-- The entries are written in another order, each once. -/
theorem sorted_perm (t : Table String String) : (sorted t).Perm t := by
  suffices h : ∀ acc : Table String String,
      (t.foldl (fun acc entry => insertSorted entry acc) acc).Perm (acc ++ t) from h []
  induction t with
  | nil => intro acc; simp
  | cons entry rest ih =>
      intro acc
      rw [List.foldl_cons]
      refine (ih _).trans (((insertSorted_perm entry acc).append_right rest).trans ?_)
      exact List.perm_middle.symm

theorem length_le_flatMap {α : Type} {f : α → List Token} (h : ∀ x, 0 < (f x).length)
    (xs : List α) : xs.length ≤ (xs.flatMap f).length := by
  induction xs with
  | nil => exact Nat.zero_le _
  | cons x xs ih =>
      have hx := h x
      rw [List.flatMap_cons, List.length_append, List.length_cons]
      omega

theorem length_le_listTokens (items : List String) : items.length ≤ (listTokens items).length := by
  cases items with
  | nil => exact Nat.zero_le _
  | cons item items =>
      exact length_le_flatMap (f := itemTokens) (by simp [itemTokens]) (item :: items)

theorem length_le_startTokens (entries : Table String String) :
    entries.length ≤ (startTokens entries).length := by
  cases entries with
  | nil => exact Nat.zero_le _
  | cons entry entries =>
      exact Nat.le_succ_of_le
        (length_le_flatMap (f := entryTokens) (by simp [entryTokens]) (entry :: entries))

theorem length_le_tableTokens (entries : Table String String) :
    entries.length ≤ (tableTokens entries).length := by
  cases entries with
  | nil => exact Nat.zero_le _
  | cons entry entries =>
      have hstart := length_le_startTokens (entry :: entries)
      show _ ≤ (startTokens (entry :: entries) ++ [Token.blockEnd]).length
      rw [List.length_append]
      omega

/-- Whether the reader takes the key of an entry at a column for a key: one that shares a line with
its value is written with no more than 1024 characters. -/
def fitsLine (column : Nat) (entry : String × String) : Bool :=
  !isSimpleKey entry.1 || decide ((scalar none column entry.1).length ≤ 1024)

theorem newline_not_mem_of_isSimpleKey {key : String} (h : isSimpleKey key = true) :
    '\n' ∉ key.toList := by
  intro hmem
  simp only [isSimpleKey, Bool.and_eq_true, Bool.not_eq_true', List.any_eq_false] at h
  exact h.2 '\n' hmem (by decide)

theorem plain_none {afterSpace : Bool} {column : Nat} (s : List Char) :
    plain none afterSpace column s = s := by
  induction s generalizing afterSpace column with
  | nil => rfl
  | cons c rest ih => simp [plain, foldsAt, ih]

/-- A word that needs no quotes is a key as it stands. -/
theorem scalar_none_of_plain {column : Nat} {word : String} (h : style word = .plain) :
    scalar none column word = word.toList := by
  rw [scalar_of_plain h, plain_none]

end Writer

namespace Scan

variable {s : Scan} {column : Nat} {more : List Nat} {tokens : List Token} {next : List Char}

/-! ## Lines -/

theorem Stand.line_replicate {text : List Char} (h : Opens text) (k : Nat) (indents : List Nat)
    (tokens : List Token) :
    line (List.replicate k ' ' ++ text) indents tokens =
      { rest := text, column := k, indents, tokens } := by
  rw [line, marginOf_replicate h, afterMargin_replicate h]

/-- A line that is indented no further than a column, or the end of the text. -/
structure Outdents (column : Nat) (text : List Char) : Prop where
  isLine : IsLine text
  margin : marginOf text ≤ column

theorem outdents_replicate {text : List Char} (hcolumn : 0 < column) (h : Opens text) :
    Outdents column (List.replicate column ' ' ++ text) where
  isLine := isLine_indented hcolumn h
  margin := Nat.le_of_eq (marginOf_replicate h column)

theorem opens_cons {c : Char} (h : c ≠ ' ' ∧ isBreak c = false ∧ c ≠ '#') (rest : List Char) :
    Opens (c :: rest) := by
  intro d hd
  rw [List.head?_cons, Option.some.injEq] at hd
  exact hd ▸ h

/-! ## Lists -/

theorem listItem_append (item : String) :
    listItem column item ++ next = List.replicate column ' ' ++
      '-' :: ' ' :: (scalar (some (column + 2)) (column + 2) item ++ '\n' :: next) := by
  simp [listItem]

theorem outdents_items (hcolumn : 0 < column) (hnext : Outdents column next)
    (items : List String) : Outdents column (items.flatMap (listItem column) ++ next) := by
  cases items with
  | nil => exact hnext
  | cons item items =>
      rw [List.flatMap_cons, List.append_assoc, listItem_append]
      exact outdents_replicate hcolumn (opens_cons (by decide) _)

theorem Reaches.past_item {item : String} (hwidth : column + 2 < width)
    (hnext : Outdents column next)
    (h : Reaches s (.line (listItem column item ++ next) (column :: more) tokens)) :
    Reaches s (.line next (column :: more) ((itemTokens item).reverse ++ tokens)) := by
  rw [listItem_append, Stand.line_replicate (opens_cons (by decide) _)] at h
  have hdash := h.past_signal .entry rfl rfl (opens_scalar _ _ item _)
  rw [Stand.closed_of_head rfl, Stand.opened_of_head rfl] at hdash
  exact hdash.past_scalar rfl rfl (by show column < column + 2; omega) (by omega) hwidth
    hnext.isLine hnext.margin

theorem Reaches.past_items {items : List String} (hcolumn : 0 < column)
    (hwidth : column + 2 < width) (hnext : Outdents column next)
    (h : Reaches s (.line (items.flatMap (listItem column) ++ next) (column :: more) tokens)) :
    Reaches s (.line next (column :: more) ((items.flatMap itemTokens).reverse ++ tokens)) := by
  induction items generalizing tokens with
  | nil => exact h
  | cons item items ih =>
      rw [List.flatMap_cons, List.append_assoc] at h
      have hrest := ih (h.past_item hwidth (outdents_items hcolumn hnext items))
      rw [List.flatMap_cons, List.reverse_append, List.append_assoc]
      exact hrest

/-! ## Tables -/

/-- What a key at a column makes of the open blocks and the tokens: it opens the block of its
mapping or goes on in it, and may end one further right. -/
inductive Opened (column : Nat) : List Nat → List Token → List Nat → List Token → Prop where
  | outermost {tokens : List Token} :
      Opened column [] tokens [column] (.blockMappingStart :: tokens)
  | first {outer : Nat} {more : List Nat} {tokens : List Token} (h : outer < column) :
      Opened column (outer :: more) tokens (column :: outer :: more) (.blockMappingStart :: tokens)
  | again {more : List Nat} {tokens : List Token} :
      Opened column (column :: more) tokens (column :: more) tokens
  | back {inner : Nat} {more : List Nat} {tokens : List Token} (h : column < inner) :
      Opened column (inner :: column :: more) tokens (column :: more) (.blockEnd :: tokens)

theorem Opened.eq {indents indents' : List Nat} {tokens' : List Token}
    (h : Opened column indents tokens indents' tokens') (rest : List Char) :
    ({ rest, column, indents, tokens } : Stand).closed.opened .blockMappingStart =
      { rest, column, indents := indents', tokens := tokens' } := by
  cases h with
  | outermost => rfl
  | first h => simp [Stand.closed, Stand.holds, Stand.opened, h, Nat.le_of_lt h]
  | again => simp [Stand.closed, Stand.holds, Stand.opened]
  | back h => simp [Stand.closed, Stand.holds, Stand.opened, h]

theorem tableEntry_simple {entry : String × String} (h : isSimpleKey entry.1 = true) :
    tableEntry column entry ++ next = List.replicate column ' ' ++
      (scalar none column entry.1 ++ ':' :: ' ' ::
        (scalar (some (column + 2)) (column + (scalar none column entry.1).length + 2) entry.2 ++
          '\n' :: next)) := by
  simp [tableEntry, h]

theorem tableEntry_explicit {entry : String × String} (h : isSimpleKey entry.1 = false) :
    tableEntry column entry ++ next = List.replicate column ' ' ++
      ('?' :: ' ' :: (scalar (some (column + 2)) (column + 2) entry.1 ++ '\n' ::
        (List.replicate column ' ' ++ (':' :: ' ' ::
          (scalar (some (column + 2)) (column + 2) entry.2 ++ '\n' :: next))))) := by
  simp [tableEntry, h]

theorem outdents_entries (hcolumn : 0 < column) (hnext : Outdents column next)
    (entries : Table String String) :
    Outdents column (entries.flatMap (tableEntry column) ++ next) := by
  cases entries with
  | nil => exact hnext
  | cons entry entries =>
      rw [List.flatMap_cons, List.append_assoc]
      cases hsimple : isSimpleKey entry.1 with
      | true =>
          rw [tableEntry_simple hsimple]
          exact outdents_replicate hcolumn (opens_scalar none column entry.1 _)
      | false =>
          rw [tableEntry_explicit hsimple]
          exact outdents_replicate hcolumn (opens_cons (by decide) _)

section Entry

variable {entry : String × String} {indents : List Nat} {tokens' : List Token}

theorem hasKey_of_isSimpleKey (hcolumn : 0 < column) (h : isSimpleKey entry.1 = true)
    {rest tail : List Char} (hrest : rest = scalar none column entry.1 ++ ':' :: ' ' :: tail) :
    ({ rest, column, indents, tokens } : Stand).HasKey column entry.1 (' ' :: tail) where
  rest := hrest
  gap := rfl
  allowed := rfl
  undivided := fun hzero => absurd hzero (Nat.ne_of_gt hcolumn)
  unbroken := newline_not_mem_of_isSimpleKey h

theorem Reaches.past_entry (hcolumn : 0 < column) (hwidth : column + 2 < width)
    (hopened : Opened column indents tokens (column :: more) tokens')
    (hfits : fitsLine column entry = true) (hnext : Outdents column next)
    (h : Reaches s (.line (tableEntry column entry ++ next) indents tokens)) :
    Reaches s (.line next (column :: more) ((entryTokens entry).reverse ++ tokens')) := by
  cases hsimple : isSimpleKey entry.1 with
  | true =>
      have hlength : (scalar none column entry.1).length ≤ 1024 := by
        simpa [fitsLine, hsimple] using hfits
      rw [tableEntry_simple hsimple, Stand.line_replicate (opens_scalar none column entry.1 _)] at h
      have hvalue := h.past_key_blank (hasKey_of_isSimpleKey hcolumn hsimple rfl) hlength
        (opens_scalar _ _ entry.2 _)
      rw [hopened.eq] at hvalue
      exact hvalue.past_scalar rfl rfl (by show column < column + _ + 2; omega) (by omega) hwidth
        hnext.isLine hnext.margin
  | false =>
      rw [tableEntry_explicit hsimple, Stand.line_replicate (opens_cons (by decide) _)] at h
      have hkey := h.past_signal .key rfl rfl (opens_scalar _ _ entry.1 _)
      rw [hopened.eq] at hkey
      have hcolon := outdents_replicate hcolumn (opens_cons (c := ':') (by decide) (' ' ::
        (scalar (some (column + 2)) (column + 2) entry.2 ++ '\n' :: next)))
      have hline := hkey.past_scalar rfl rfl (by show column < column + 2; omega) (by omega) hwidth
        hcolon.isLine hcolon.margin
      rw [Stand.line_replicate (opens_cons (by decide) _)] at hline
      have hvalue := hline.past_signal .value rfl rfl (opens_scalar _ _ entry.2 _)
      rw [Stand.closed_of_head rfl, Stand.opened_of_head rfl] at hvalue
      exact hvalue.past_scalar rfl rfl (by show column < column + 2; omega) (by omega) hwidth
        hnext.isLine hnext.margin

/-- An entry whose key is too long ends the scan. -/
theorem Reaches.entry_too_long (hcolumn : 0 < column)
    (hhead : ∀ first, indents.head? = some first → first ≤ column)
    (hfits : fitsLine column entry = false)
    (h : Reaches s (.line (tableEntry column entry ++ next) indents tokens)) :
    Ends s (tokens.reverse, some .malformed) := by
  have ⟨hsimple, hlength⟩ : isSimpleKey entry.1 = true ∧
      1024 < (scalar none column entry.1).length := by
    simpa [fitsLine] using hfits
  rw [tableEntry_simple hsimple, Stand.line_replicate (opens_scalar none column entry.1 _)] at h
  have hends := h.key_too_long (hasKey_of_isSimpleKey hcolumn hsimple rfl) hlength
  rwa [Stand.closed_eq_self hhead] at hends

end Entry

theorem Reaches.past_entries {entries : Table String String} (hcolumn : 0 < column)
    (hwidth : column + 2 < width) (hfits : ∀ entry ∈ entries, fitsLine column entry = true)
    (hnext : Outdents column next)
    (h : Reaches s (.line (entries.flatMap (tableEntry column) ++ next) (column :: more) tokens)) :
    Reaches s (.line next (column :: more) ((entries.flatMap entryTokens).reverse ++ tokens)) := by
  induction entries generalizing tokens with
  | nil => exact h
  | cons entry entries ih =>
      obtain ⟨hentry, hentries⟩ := List.forall_mem_cons.mp hfits
      rw [List.flatMap_cons, List.append_assoc] at h
      have hrest := ih hentries
        (h.past_entry hcolumn hwidth .again hentry (outdents_entries hcolumn hnext entries))
      rw [List.flatMap_cons, List.reverse_append, List.append_assoc]
      exact hrest

/-- The first entries of a table open its block and take a scan behind them. -/
theorem Reaches.past_start {outer : Nat} {entries : Table String String} (houter : outer < column)
    (hwidth : column + 2 < width) (hfits : ∀ entry ∈ entries, fitsLine column entry = true)
    (hnext : Outdents column next)
    (h : Reaches s (.line (entries.flatMap (tableEntry column) ++ next) (outer :: more) tokens)) :
    Reaches s (.line next (if entries.isEmpty then outer :: more else column :: outer :: more)
      ((startTokens entries).reverse ++ tokens)) := by
  have hcolumn : 0 < column := Nat.zero_lt_of_lt houter
  cases entries with
  | nil => exact h
  | cons entry entries =>
      obtain ⟨hentry, hentries⟩ := List.forall_mem_cons.mp hfits
      rw [List.flatMap_cons, List.append_assoc] at h
      have hfirst := h.past_entry hcolumn hwidth (.first houter) hentry
        (outdents_entries hcolumn hnext entries)
      have hrest := hfirst.past_entries hcolumn hwidth hentries hnext
      simpa [startTokens] using hrest

/-- A block of entries with a key that is too long ends the scan there. -/
theorem Reaches.ends_start {outer : Nat} {entries : Table String String} (houter : outer < column)
    (hwidth : column + 2 < width) (hlong : entries.all (fitsLine column) = false)
    (h : Reaches s (.line (entries.flatMap (tableEntry column) ++ next) (outer :: more) tokens))
    (hnext : Outdents column next) :
    Ends s (tokens.reverse ++ startTokens (entries.takeWhile (fitsLine column)),
      some .malformed) := by
  have hcolumn : 0 < column := Nat.zero_lt_of_lt houter
  have hsplit := List.takeWhile_append_dropWhile (p := fitsLine column) (l := entries)
  have hfits : ∀ entry ∈ entries.takeWhile (fitsLine column), fitsLine column entry = true :=
    fun entry hentry => List.mem_takeWhile_imp hentry
  cases hrest : entries.dropWhile (fitsLine column) with
  | nil =>
      rw [hrest, List.append_nil] at hsplit
      rw [hsplit] at hfits
      rw [List.all_eq_true.mpr hfits] at hlong
      cases hlong
  | cons entry rest =>
      have hentry : fitsLine column entry = false := by
        have hhead := List.head?_dropWhile_not (fitsLine column) entries
        rw [hrest] at hhead
        simpa using hhead
      rw [hrest] at hsplit
      rw [← hsplit, List.flatMap_append, List.append_assoc] at h
      have hstart := h.past_start houter hwidth hfits
        (outdents_entries hcolumn hnext (entry :: rest))
      rw [List.flatMap_cons, List.append_assoc] at hstart
      have hends := hstart.entry_too_long hcolumn (fun first hfirst => ?_) hentry
      · simpa using hends
      · split at hfirst <;> cases hfirst
        · exact Nat.le_of_lt houter
        · exact Nat.le_refl column

/-! ## Keys over lists and tables -/

/-- A word that is a key as it stands, on any line. -/
structure IsName (word : String) : Prop where
  plain : style word = .plain
  short : word.toList.length ≤ 1024
  undivided : ∀ tail, atDivider (word.toList ++ tail) = false

theorem isName_of_head {word : String} (hplain : style word = .plain)
    (hshort : word.toList.length ≤ 1024)
    (hhead : word.toList.head?.all (fun c => decide (c ≠ '-' ∧ c ≠ '.')) = true) : IsName word := by
  refine ⟨hplain, hshort, fun tail => ?_⟩
  have hallows := (style_plain hplain).1
  cases hword : word.toList with
  | nil =>
      rw [hword] at hallows
      cases hallows
  | cons c more =>
      have hc : c ≠ '-' ∧ c ≠ '.' := by simpa [hword] using hhead
      exact atDivider_of_head hc.1 hc.2 _

section Word

variable {word : String} {tail : List Char} {indents : List Nat} {tokens' : List Token}

theorem IsName.opens (h : IsName word) (tail : List Char) : Opens (word.toList ++ tail) := by
  have hopens := opens_scalar none 0 word tail
  rwa [scalar_none_of_plain h.plain] at hopens

theorem IsName.hasKey (h : IsName word) (htail : endsAt isGap tail = true) :
    ({ rest := word.toList ++ ':' :: tail, column, indents, tokens } : Stand).HasKey column word
      tail where
  rest := by rw [scalar_none_of_plain h.plain]
  gap := htail
  allowed := rfl
  undivided := fun _ => h.undivided _
  unbroken := fun hmem => absurd rfl
    (ne_of_isVisible (isVisible_of_allowsPlain (style_plain h.plain).1 _ hmem) (by decide))

theorem IsName.length_le (h : IsName word) : (scalar none column word).length ≤ 1024 := by
  rw [scalar_none_of_plain h.plain]
  exact h.short

/-- The line of a name in the first column, or further right. -/
theorem IsName.outdents (h : IsName word) (tail : List Char) :
    Outdents column (List.replicate column ' ' ++ (word.toList ++ tail)) := by
  cases column with
  | succ column => exact outdents_replicate (Nat.succ_pos column) (h.opens tail)
  | zero =>
      refine ⟨⟨?_, h.undivided tail⟩, Nat.le_of_eq (marginOf_replicate (h.opens tail) 0)⟩
      rw [afterMargin_replicate (h.opens tail)]
      exact h.opens tail

/-- The line under a name with its colon. -/
theorem Reaches.past_name {indents' : List Nat} (hword : IsName word)
    (hopened : Opened column indents tokens indents' tokens') (hnext : IsLine next)
    (h : Reaches s (.line (List.replicate column ' ' ++ (word.toList ++ ':' :: '\n' :: next))
      indents tokens)) :
    Reaches s (.line next indents' ((keyTokens word).reverse ++ tokens')) := by
  rw [Stand.line_replicate (hword.opens _)] at h
  have hline := h.past_key_line (hword.hasKey rfl) hword.length_le hnext
  rwa [hopened.eq] at hline

/-- The value behind a name with its colon. -/
theorem Reaches.past_name_blank {rest : List Char} {indents' : List Nat} (hword : IsName word)
    (hopened : Opened column indents tokens indents' tokens') (hopens : Opens rest)
    (h : Reaches s (.line (List.replicate column ' ' ++ (word.toList ++ ':' :: ' ' :: rest)) indents
      tokens)) :
    Reaches s
      { rest, column := column + word.toList.length + 2, keyAllowed := false, indents := indents',
        tokens := (keyTokens word).reverse ++ tokens' } := by
  rw [Stand.line_replicate (hword.opens _)] at h
  have hvalue := h.past_key_blank (hword.hasKey rfl) hword.length_le hopens
  rwa [hopened.eq, scalar_none_of_plain hword.plain] at hvalue

/-- Empty brackets behind a name take a scan to the next line. -/
theorem Reaches.past_name_brackets {o c : Char} {first last : Token} (hword : IsName word)
    (hbrackets : Brackets o c first last)
    (hopened : Opened column indents tokens (column :: more) tokens') (hnext : IsLine next)
    (h : Reaches s (.line (List.replicate column ' ' ++
      (word.toList ++ ':' :: ' ' :: o :: c :: '\n' :: next)) indents tokens)) :
    Reaches s (.line next (column :: more)
      ((keyTokens word ++ [first, last]).reverse ++ tokens')) := by
  have hopens : Opens (o :: c :: '\n' :: next) := by
    cases hbrackets <;> exact opens_cons (by decide) _
  have hvalue := h.past_name_blank hword hopened hopens
  have hline := hvalue.past_brackets hbrackets rfl rfl (fun first hfirst => by
    cases hfirst
    show column ≤ column + _ + 2
    omega) hnext
  simpa using hline

/-- A key over a list takes a scan to the line behind the list. -/
theorem Reaches.past_list {items : List String} (hword : IsName word) (hcolumn : 0 < column)
    (hwidth : column + 2 < width)
    (hopened : Opened column indents tokens (column :: more) tokens')
    (hnext : Outdents column next)
    (h : Reaches s (.line (list column word items ++ next) indents tokens)) :
    Reaches s (.line next (column :: more)
      ((keyTokens word ++ listTokens items).reverse ++ tokens')) := by
  cases items with
  | nil =>
      have htext : list column word [] ++ next = List.replicate column ' ' ++
          (word.toList ++ ':' :: ' ' :: '[' :: ']' :: '\n' :: next) := by simp [list]
      rw [htext] at h
      exact h.past_name_brackets hword .sequence hopened hnext.isLine
  | cons item items =>
      have htext : list column word (item :: items) ++ next = List.replicate column ' ' ++
          (word.toList ++ ':' :: '\n' :: ((item :: items).flatMap (listItem column) ++ next)) := by
        simp [list]
      rw [htext] at h
      have hline := h.past_name hword hopened (outdents_items hcolumn hnext (item :: items)).isLine
      rw [List.reverse_append, List.append_assoc]
      exact hline.past_items hcolumn hwidth hnext

/-- A key over a table at the end of the text ends the scan: with all its tokens if every key fits,
else with those before the first key that does not. -/
theorem Reaches.ends_table {entries : Table String String} (hword : IsName word)
    (hwidth : column + 4 < width)
    (hopened : Opened column indents tokens (column :: more) tokens')
    (h : Reaches s (.line (table column word entries) indents tokens)) :
    Ends s
      (if (sorted entries).all (fitsLine (column + 2)) then
        (tokens'.reverse ++ (keyTokens word ++ tableTokens (sorted entries) ++
          List.replicate (more.length + 1) .blockEnd ++ [.streamEnd]), none)
       else
        (tokens'.reverse ++ (keyTokens word ++
          startTokens ((sorted entries).takeWhile (fitsLine (column + 2)))), some .malformed)) := by
  have hend (k : Nat) : Outdents k [] := ⟨isLine_nil, Nat.zero_le k⟩
  cases hentries : sorted entries with
  | nil =>
      have hempty : entries = [] := by
        rw [← List.length_eq_zero_iff, ← (sorted_perm entries).length_eq, hentries, List.length_nil]
      have htext : table column word entries = List.replicate column ' ' ++
          (word.toList ++ ':' :: ' ' :: '\x7b' :: '\x7d' :: '\n' :: []) := by
        simp [table, hempty]
      rw [htext] at h
      have hends := (h.past_name_brackets hword .mapping hopened isLine_nil).ends rfl
      simpa [Stand.line, tableTokens] using hends
  | cons entry rest =>
      have hne : entries.isEmpty = false := by
        cases entries with
        | nil => cases hentries
        | cons => rfl
      have htext : table column word entries = List.replicate column ' ' ++
          (word.toList ++ ':' :: '\n' ::
            ((sorted entries).flatMap (tableEntry (column + 2)) ++ [])) := by
        simp [table, hne]
      rw [htext] at h
      have hline := h.past_name hword hopened
        (outdents_entries (Nat.succ_pos (column + 1)) (hend _) (sorted entries)).isLine
      rw [← hentries]
      cases hall : (sorted entries).all (fitsLine (column + 2)) with
      | true =>
          have hstart := hline.past_start (by omega) (by omega) (List.all_eq_true.mp hall) (hend _)
          have hends := hstart.ends rfl
          have hblocks : List.replicate (more.length + 1 + 1) Token.blockEnd =
              .blockEnd :: List.replicate (more.length + 1) .blockEnd := rfl
          simp [Stand.line, hentries, startTokens] at hends
          simpa [hentries, tableTokens, ← hblocks] using hends
      | false =>
          have hends := hline.ends_start (by omega) (by omega) hall (hend _)
          simpa using hends

end Word

/-! ## Characters -/

/-- All that is written is visible or ends a line. -/
def IsWritten (text : List Char) : Prop := ∀ d ∈ text, isVisible d = true ∨ d = '\n'

@[simp]
theorem isWritten_nil : IsWritten [] := fun _ hd => absurd hd List.not_mem_nil

@[simp]
theorem isWritten_cons {c : Char} {text : List Char} :
    IsWritten (c :: text) ↔ (isVisible c = true ∨ c = '\n') ∧ IsWritten text :=
  List.forall_mem_cons

@[simp]
theorem isWritten_append {text more : List Char} :
    IsWritten (text ++ more) ↔ IsWritten text ∧ IsWritten more :=
  List.forall_mem_append

@[simp]
theorem isWritten_margin (k : Nat) : IsWritten (List.replicate k ' ') := by
  intro d hd
  rw [List.eq_of_mem_replicate hd]
  exact .inl rfl

@[simp]
theorem isWritten_scalar (fold : Fold) (column : Nat) (text : String) :
    IsWritten (scalar fold column text) :=
  fun _ hd => (mem_scalar hd).imp id And.left

theorem isWritten_flatMap {α : Type} {f : α → List Char} (h : ∀ x, IsWritten (f x)) (xs : List α) :
    IsWritten (xs.flatMap f) := by
  intro d hd
  obtain ⟨x, -, hmem⟩ := List.mem_flatMap.mp hd
  exact h x d hmem

theorem isWritten_listItem (item : String) : IsWritten (listItem column item) := by
  simp [listItem, isVisible]

theorem isWritten_tableEntry (entry : String × String) : IsWritten (tableEntry column entry) := by
  simp only [tableEntry]
  split <;> simp [isVisible]

theorem IsName.isWritten {word : String} (h : IsName word) : IsWritten word.toList :=
  fun d hd => .inl (isVisible_of_allowsPlain (style_plain h.plain).1 d hd)

theorem isWritten_list {word : String} (h : IsName word) (items : List String) :
    IsWritten (list column word items) := by
  simp only [list]
  split <;> simp [h.isWritten, isVisible, isWritten_flatMap isWritten_listItem]

theorem isWritten_table {word : String} (h : IsName word) (entries : Table String String) :
    IsWritten (table column word entries) := by
  simp only [table]
  split <;> simp [h.isWritten, isVisible, isWritten_flatMap isWritten_tableEntry]

/-! ## Documents -/

/-- The text of a list and a table, each with a key of its own under an outer key. -/
def twoSections (outer inner : String) (items : List String) (outer' inner' : String)
    (entries : Table String String) : List Char :=
  outer.toList ++ ':' :: '\n' :: (list 2 inner items ++
    (outer'.toList ++ ':' :: '\n' :: table 2 inner' entries))

theorem isWritten_twoSections {outer inner outer' inner' : String} (houter : IsName outer)
    (hinner : IsName inner) (houter' : IsName outer') (hinner' : IsName inner')
    (items : List String) (entries : Table String String) :
    IsWritten (twoSections outer inner items outer' inner' entries) := by
  simp [twoSections, houter.isWritten, houter'.isWritten, isWritten_list hinner,
    isWritten_table hinner', isVisible]

/-- The tokens up to the last inner key. -/
def sectionTokens (outer inner : String) (items : List String) (outer' : String) : List Token :=
  .blockMappingStart :: keyTokens outer ++ .blockMappingStart :: keyTokens inner ++
    listTokens items ++ .blockEnd :: keyTokens outer' ++ [.blockMappingStart]

theorem ends_twoSections {outer inner outer' inner' : String} {items : List String}
    {entries : Table String String} (houter : IsName outer) (hinner : IsName inner)
    (houter' : IsName outer') (hinner' : IsName inner') :
    Ends { rest := twoSections outer inner items outer' inner' entries }
      (if (sorted entries).all (fitsLine 4) then
        (sectionTokens outer inner items outer' ++ (keyTokens inner' ++
          tableTokens (sorted entries) ++ [.blockEnd, .blockEnd, .streamEnd]), none)
       else
        (sectionTokens outer inner items outer' ++ (keyTokens inner' ++
          startTokens ((sorted entries).takeWhile (fitsLine 4))), some .malformed)) := by
  have hopens : Opens (twoSections outer inner items outer' inner' entries) := houter.opens _
  have hstart : Reaches { rest := twoSections outer inner items outer' inner' entries }
      (.line (List.replicate 0 ' ' ++ twoSections outer inner items outer' inner' entries)
        [] []) := by
    rw [Stand.line_replicate hopens]
    exact (stands_of_skip rfl (by simp) (skip_of_opens hopens)).reaches
  have hlist : Outdents 2 (list 2 inner items ++
      (outer'.toList ++ ':' :: '\n' :: table 2 inner' entries)) := by
    rw [list, List.append_assoc, List.append_assoc]
    exact hinner.outdents _
  have htable : Outdents 2 (table 2 inner' entries) := by
    rw [table, List.append_assoc]
    exact hinner'.outdents _
  have hbetween : Outdents 0 (outer'.toList ++ ':' :: '\n' :: table 2 inner' entries) :=
    houter'.outdents _
  have hunder := hstart.past_name houter .outermost hlist.isLine
  have hbehind := hunder.past_list hinner (by omega) (by decide) (.first (by omega))
    ⟨hbetween.isLine, Nat.le_trans hbetween.margin (by omega)⟩
  have hline : Reaches { rest := twoSections outer inner items outer' inner' entries }
      (.line (List.replicate 0 ' ' ++ (outer'.toList ++ ':' :: '\n' :: table 2 inner' entries))
        [2, 0] _) := hbehind
  have hagain := hline.past_name houter' (.back (by omega)) htable.isLine
  have hends := hagain.ends_table hinner' (by decide) (.first (by omega))
  simpa [sectionTokens] using hends

end Scan
end Yaml
end Polyglot
