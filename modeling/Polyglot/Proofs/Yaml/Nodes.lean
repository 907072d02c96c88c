/-
The nodes of tokens that were written.

`Reads` says that a reader takes tokens for a node whatever follows them, with any bound from some
number on.  Texts and lists are read so, and a mapping is if its values are; a document is a mapping
of mappings.  Tokens that break off inside a table are found to be too few (`Breaks`), not to be out
of order, so the fault that broke them off is the one that counts.
-/
import Polyglot.Proofs.Data.Merge
import Polyglot.Proofs.Yaml.Layout
import Polyglot.Yaml.Node.Parse
import Polyglot.Yaml.Value

namespace Polyglot
namespace Yaml
namespace Node

open Writer

variable {scope : Scope} {place : Place} {n m : Nat} {ts rest : List Token}

/-! ## One node -/

/-- The node of a text. -/
def ofText (s : String) : Node := scalar .str s

/-- A token with which the content of a node begins. -/
def opensContent : Token → Bool
  | .scalar _ _ => true
  | .flowSequenceStart => true
  | .flowMappingStart => true
  | .blockMappingStart => true
  | .blockEntry => true
  | _ => false

/-- A node without properties is its content. -/
theorem parse_of_content {t : Token} (h : opensContent t = true) :
    parse (n + 1) place scope (t :: rest) = content n place {} scope (t :: rest) := by
  cases t with
  | scalar | flowSequenceStart | flowMappingStart | blockMappingStart | blockEntry =>
      simp [parse, properties]
  | _ => cases h

theorem item_of_content {t : Token} (h : opensContent t = true)
    (hends : place.ends.contains t = false) :
    item (n + 2) place scope (t :: rest) = content n place {} scope (t :: rest) := by
  rw [item, hends, if_neg Bool.false_ne_true, parse_of_content h]

/-- However it is written, a text has the tag of texts. -/
theorem scalarTag_scalarToken (s : String) :
    ({} : Properties).scalarTag (isPlain s) s = .str := by
  cases hplain : isPlain s with
  | false => rfl
  | true =>
      have hstyle : style s = .plain := by simpa [isPlain] using hplain
      exact (style_plain hstyle).2

theorem item_scalar (hn : 3 ≤ n) (s : String)
    (hends : place.ends.contains (scalarToken s) = false) :
    item n place scope (scalarToken s :: rest) = .ok { result := ofText s, scope, rest } := by
  obtain ⟨n, rfl⟩ := Nat.exists_eq_add_of_le' hn
  rw [item_of_content rfl hends, scalarToken, content, ofScalar, scalarTag_scalarToken]
  rfl

/-! ## What is read in a mapping -/

/-- From the bound `n` on, the tokens are read as a node wherever a key or a value may stand, if no
further item of a list follows. -/
def Reads (n : Nat) (scope : Scope) (ts : List Token) (node : Node) : Prop :=
  ∀ m t rest, n ≤ m → t ≠ .blockEntry →
    item m .blockPart scope (ts ++ t :: rest) = .ok { result := node, scope, rest := t :: rest }

theorem Reads.mono {node : Node} (h : Reads n scope ts node) (hm : n ≤ m) :
    Reads m scope ts node :=
  fun k t rest hk ht => h k t rest (Nat.le_trans hm hk) ht

theorem not_ends_scalar (s : String) : Place.blockPart.ends.contains (scalarToken s) = false := rfl

theorem reads_text (s : String) : Reads 3 scope [scalarToken s] (ofText s) :=
  fun _ _ _ hm _ => item_scalar hm s (not_ends_scalar s)

/-! ## Lists -/

theorem indentlessItems_items {t : Token} (ht : t ≠ .blockEntry) (items : List String)
    (hn : items.length + 4 ≤ n) :
    indentlessItems n scope (items.flatMap itemTokens ++ t :: rest) =
      .ok { result := items.map ofText, scope, rest := t :: rest } := by
  induction items generalizing n with
  | nil =>
      obtain ⟨n, rfl⟩ := Nat.exists_eq_add_of_le' hn
      cases t with
      | blockEntry => exact absurd rfl ht
      | _ => rfl
  | cons item items ih =>
      obtain ⟨n, rfl⟩ := Nat.exists_eq_add_of_le' (Nat.le_trans (by omega : 1 ≤ _) hn)
      have hlength : items.length + 4 ≤ n := by
        rw [List.length_cons] at hn
        omega
      show indentlessItems (n + 1) scope
        (.blockEntry :: scalarToken item :: (items.flatMap itemTokens ++ t :: rest)) = _
      rw [indentlessItems, item_scalar (by omega) item rfl]
      simp only [bind, Except.bind, ih hlength]
      rfl

theorem reads_list (items : List String) :
    Reads (items.length + 7) scope (listTokens items) (sequence .seq (items.map ofText)) := by
  intro m t rest hm ht
  obtain ⟨m, rfl⟩ := Nat.exists_eq_add_of_le' (Nat.le_trans (by omega : 3 ≤ _) hm)
  cases items with
  | nil =>
      obtain ⟨m, rfl⟩ := Nat.exists_eq_add_of_le' (by simpa using hm : 4 ≤ m)
      show item (m + 4 + 3) .blockPart scope
        (.flowSequenceStart :: .flowSequenceEnd :: t :: rest) = _
      rw [item_of_content rfl rfl, content, flowItems]
      rfl
  | cons first items =>
      have hitems :
          indentlessItems m scope ((first :: items).flatMap itemTokens ++ t :: rest) = _ :=
        indentlessItems_items ht (first :: items) (by omega)
      show item (m + 3) .blockPart scope
        (.blockEntry :: scalarToken first :: (items.flatMap itemTokens ++ t :: rest)) = _
      rw [item_of_content rfl rfl, content]
      show (do
        let r ← indentlessItems m scope ((first :: items).flatMap itemTokens ++ t :: rest); _) = _
      rw [hitems]
      rfl

/-! ## Mappings -/

/-- A part of a mapping: its key, the tokens of its value, and the node and the value that they
stand for. -/
structure Part where
  key : String
  tokens : List Token
  node : Node
  value : Value

def Part.all (part : Part) : List Token := keyTokens part.key ++ part.tokens

def Part.nodes (part : Part) : Node × Node := (ofText part.key, part.node)

def Part.entry (part : Part) : Scalar × Value := (.text part.key, part.value)

/-- A key of one word leaves the reader at its value. -/
theorem pair_key (hn : 5 ≤ n) (key : String) :
    pair n .blockPart .blockPart scope (scalarToken key :: .value :: ts) =
      (item (n - 2) .blockPart scope ts).map fun v => v.put (ofText key, v.result) := by
  obtain ⟨n, rfl⟩ := Nat.exists_eq_add_of_le' hn
  rw [pair, item_scalar (by omega) key rfl]
  show (do let v ← valueOf (n + 4) .blockPart scope (.value :: ts); _) = _
  rw [valueOf]
  show (do let v ← item (n + 3) .blockPart scope ts; _) = (item (n + 3) .blockPart scope ts).map _
  cases item (n + 3) .blockPart scope ts <;> rfl

/-- The parts of a mapping are read before what follows them. -/
theorem blockPairs_parts {parts : List Part}
    (hparts : ∀ part ∈ parts, Reads n scope part.tokens part.node)
    {t : Token} (ht : t ≠ .blockEntry) (hm : n + 5 ≤ m) :
    blockPairs (m + parts.length) scope (parts.flatMap Part.all ++ t :: ts) =
      (blockPairs m scope (t :: ts)).map fun r => r.put (parts.map Part.nodes ++ r.result) := by
  induction parts with
  | nil =>
      show blockPairs m scope (t :: ts) = _
      cases blockPairs m scope (t :: ts) <;> rfl
  | cons part parts ih =>
      obtain ⟨hpart, hrest⟩ := List.forall_mem_cons.mp hparts
      obtain ⟨t', ts', hnext, ht'⟩ : ∃ t' ts', parts.flatMap Part.all ++ t :: ts = t' :: ts' ∧
          t' ≠ .blockEntry := by
        cases parts with
        | nil => exact ⟨t, ts, rfl, ht⟩
        | cons next parts => exact ⟨.key, _, rfl, by simp⟩
      show blockPairs (m + parts.length + 1) scope (.key :: scalarToken part.key :: .value ::
        (part.tokens ++ parts.flatMap Part.all ++ t :: ts)) = _
      rw [blockPairs, pair_key (by omega), List.append_assoc, hnext, hpart _ _ _ (by omega) ht',
        ← hnext]
      show (do
        let more ← blockPairs (m + parts.length) scope (parts.flatMap Part.all ++ t :: ts); _) = _
      rw [ih hrest]
      cases blockPairs m scope (t :: ts) <;> rfl

/-- The tokens of a block mapping. -/
def mappingTokens (parts : List Part) : List Token :=
  .blockMappingStart :: (parts.flatMap Part.all ++ [.blockEnd])

/-- A block mapping is what its pairs are. -/
theorem content_mapping (hblock : place.block = true) :
    content (n + 1) place {} scope (.blockMappingStart :: ts) =
      (blockPairs n scope ts).map fun r => r.put (mapping .map r.result) := by
  rw [content, hblock, if_pos rfl]
  show (do let r ← blockPairs n scope ts; _) = (blockPairs n scope ts).map _
  cases blockPairs n scope ts <;> rfl

/-- A mapping is read up to its end if its parts are. -/
theorem blockPairs_mapping {parts : List Part}
    (hparts : ∀ part ∈ parts, Reads n scope part.tokens part.node)
    (hm : n + parts.length + 5 ≤ m) :
    blockPairs m scope (parts.flatMap Part.all ++ .blockEnd :: ts) =
      .ok { result := parts.map Part.nodes, scope, rest := ts } := by
  obtain ⟨k, hk, rfl⟩ : ∃ k, n + 5 ≤ k + 1 ∧ m = k + 1 + parts.length :=
    ⟨m - parts.length - 1, by omega, by omega⟩
  rw [blockPairs_parts hparts (by simp) hk, blockPairs]
  simp [Except.map, Read.put]

theorem reads_mapping {parts : List Part}
    (hparts : ∀ part ∈ parts, Reads n scope part.tokens part.node) :
    Reads (n + parts.length + 8) scope (mappingTokens parts)
      (mapping .map (parts.map Part.nodes)) := by
  intro m t rest hm ht
  obtain ⟨m, rfl⟩ := Nat.exists_eq_add_of_le' (Nat.le_trans (by omega : 3 ≤ _) hm)
  rw [mappingTokens, List.cons_append, List.append_assoc, item_of_content rfl rfl,
    content_mapping rfl, List.singleton_append, blockPairs_mapping hparts (by omega)]
  rfl

/-! ## Tables -/

/-- An entry of a table as a part of a mapping. -/
def entryPart (entry : String × String) : Part :=
  { key := entry.1, tokens := [scalarToken entry.2], node := ofText entry.2,
    value := .scalar (.text entry.2) }

theorem flatMap_entryPart (entries : Table String String) :
    (entries.map entryPart).flatMap Part.all = entries.flatMap entryTokens :=
  List.flatMap_map ..

theorem reads_table (entries : Table String String) :
    Reads (entries.length + 11) scope (tableTokens entries)
      (mapping .map ((entries.map entryPart).map Part.nodes)) := by
  cases entries with
  | nil =>
      intro m t rest hm ht
      obtain ⟨m, rfl⟩ := Nat.exists_eq_add_of_le' (Nat.le_trans (by omega : 5 ≤ _) hm)
      show item (m + 3 + 2) .blockPart scope (.flowMappingStart :: .flowMappingEnd :: t :: rest) = _
      rw [item_of_content rfl rfl, content, flowPairs]
      rfl
  | cons entry entries =>
      have hparts : ∀ part ∈ (entry :: entries).map entryPart,
          Reads 3 scope part.tokens part.node := by
        intro part hpart
        obtain ⟨e, -, rfl⟩ := List.mem_map.mp hpart
        exact reads_text e.2
      have hmapping := reads_mapping hparts
      rw [mappingTokens, flatMap_entryPart, List.length_map] at hmapping
      exact hmapping.mono (by omega)

/-! ## Tokens that break off -/

/-- From the bound `n` on, the tokens are found to be too few for a value. -/
def Breaks (n : Nat) (scope : Scope) (ts : List Token) : Prop :=
  ∀ m, n ≤ m → item m .blockPart scope ts = .error .exhausted

theorem blockPairs_entries (entries : Table String String) (hm : entries.length + 6 ≤ m) :
    blockPairs m scope (entries.flatMap entryTokens) = .error .exhausted := by
  induction entries generalizing m with
  | nil =>
      obtain ⟨m, rfl⟩ := Nat.exists_eq_add_of_le' hm
      rfl
  | cons entry entries ih =>
      rw [List.length_cons] at hm
      obtain ⟨m, rfl⟩ := Nat.exists_eq_add_of_le' (Nat.le_trans (by omega : 1 ≤ _) hm)
      show blockPairs (m + 1) scope (.key :: scalarToken entry.1 :: .value :: scalarToken entry.2 ::
        entries.flatMap entryTokens) = _
      rw [blockPairs, pair_key (by omega), item_scalar (by omega) entry.2 rfl]
      show (do let more ← blockPairs m scope (entries.flatMap entryTokens); _) = _
      rw [ih (by omega)]
      rfl

/-- The first entries of a table do not make one up. -/
theorem breaks_start (entries : Table String String) :
    Breaks (entries.length + 9) scope (startTokens entries) := by
  intro m hm
  obtain ⟨m, rfl⟩ := Nat.exists_eq_add_of_le' (Nat.le_trans (by omega : 3 ≤ _) hm)
  cases entries with
  | nil => rfl
  | cons entry entries =>
      show item (m + 3) .blockPart scope
        (.blockMappingStart :: (entry :: entries).flatMap entryTokens) = _
      rw [item_of_content rfl rfl, content_mapping rfl, blockPairs_entries _ (by omega)]
      rfl

/-- A mapping whose last value breaks off breaks off. -/
theorem blockPairs_breaks {parts : List Part} {key : String}
    (hparts : ∀ part ∈ parts, Reads n scope part.tokens part.node) (hbreaks : Breaks n scope ts)
    (hm : n + parts.length + 6 ≤ m) :
    blockPairs m scope (parts.flatMap Part.all ++ (keyTokens key ++ ts)) = .error .exhausted := by
  obtain ⟨k, hk, rfl⟩ : ∃ k, n + 5 ≤ k ∧ m = k + 1 + parts.length :=
    ⟨m - parts.length - 1, by omega, by omega⟩
  show blockPairs (k + 1 + parts.length) scope
    (parts.flatMap Part.all ++ .key :: scalarToken key :: .value :: ts) = _
  rw [blockPairs_parts hparts (by simp) (by omega), blockPairs, pair_key (by omega),
    hbreaks _ (by omega)]
  rfl

/-- A table that breaks off breaks its mapping off. -/
theorem breaks_mapping {key : String} (hbreaks : Breaks n scope ts) :
    Breaks (n + 9) scope (.blockMappingStart :: (keyTokens key ++ ts)) := by
  intro m hm
  obtain ⟨m, rfl⟩ := Nat.exists_eq_add_of_le' (Nat.le_trans (by omega : 3 ≤ _) hm)
  have hpairs : blockPairs m scope (([] : List Part).flatMap Part.all ++ (keyTokens key ++ ts)) =
      .error .exhausted := blockPairs_breaks (by simp) hbreaks (by rw [List.length_nil]; omega)
  rw [item_of_content rfl rfl, content_mapping rfl]
  show (blockPairs m scope (([] : List Part).flatMap Part.all ++ (keyTokens key ++ ts))).map _ = _
  rw [hpairs]
  rfl

/-! ## Documents -/

/-- Where a document without directives is read. -/
def standardScope : Scope := { handles := Scope.standardHandles }

theorem ofTokens_of_mapping (ts : List Token) :
    ofTokens (.blockMappingStart :: ts) = do
      let r ← (blockPairs (5 * ts.length + 8) standardScope ts).map fun r =>
        r.put (mapping .map r.result)
      epilogue r.rest
      return some r.result := by
  have hdepth : depthOf (.blockMappingStart :: ts) = 5 * ts.length + 8 + 1 + 1 := by
    rw [depthOf, List.length_cons]
    omega
  show (do
    let r ← parse (depthOf (.blockMappingStart :: ts)) .bareDocument standardScope
      (.blockMappingStart :: ts)
    epilogue r.rest
    return some r.result) = _
  rw [hdepth, parse_of_content rfl, content_mapping rfl]

/-- A mapping up to the end of the text is a document. -/
theorem ofTokens_mapping {parts : List Part}
    (hparts : ∀ part ∈ parts, Reads n standardScope part.tokens part.node)
    (hn : n + parts.length ≤ 5 * (parts.flatMap Part.all).length) :
    ofTokens (.blockMappingStart :: (parts.flatMap Part.all ++ [.blockEnd, .streamEnd])) =
      .ok (some (mapping .map (parts.map Part.nodes))) := by
  rw [ofTokens_of_mapping, blockPairs_mapping hparts (by rw [List.length_append]; omega)]
  rfl

/-- A document whose last value breaks off is cut short. -/
theorem ofTokens_breaks {parts : List Part} {key : String}
    (hparts : ∀ part ∈ parts, Reads n standardScope part.tokens part.node)
    (hbreaks : Breaks n standardScope ts)
    (hn : n + parts.length ≤ 5 * (parts.flatMap Part.all ++ (keyTokens key ++ ts)).length) :
    ofTokens (.blockMappingStart :: (parts.flatMap Part.all ++ (keyTokens key ++ ts))) =
      .error .exhausted := by
  rw [ofTokens_of_mapping, blockPairs_breaks hparts hbreaks (by omega)]
  rfl

/-! ## Values -/

theorem all_ok {α : Type} (xs : List α) : Built.all (xs.map .ok) = .ok xs := by
  induction xs with
  | nil => rfl
  | cons x xs ih =>
      rw [List.map_cons, Built.all, ih]
      rfl

theorem toValue_ofText (level : Nat) (s : String) :
    toValue level (ofText s) = .ok (.scalar (.text s)) := rfl

theorem toValue_texts (level : Nat) (items : List String) :
    toValue level (sequence .seq (items.map ofText)) =
      .ok (.list (items.map fun s => .scalar (.text s))) := by
  have hitems : toValues (level + 1) (items.map ofText) =
      (items.map fun s => Value.scalar (.text s)).map .ok := by
    induction items with
    | nil => rfl
    | cons s items ih =>
        rw [List.map_cons, toValues, ih]
        rfl
  rw [toValue, hitems, all_ok]
  rfl

/-- A mapping with distinct texts as keys stands for the table of its values. -/
theorem toValue_mapping {level : Nat} {parts : List Part}
    (hvalues : ∀ part ∈ parts, toValue (level + 1) part.node = .ok part.value)
    (hdistinct : Table.Distinct (parts.map Part.entry)) :
    toValue level (mapping .map (parts.map Part.nodes)) = .ok (.map (parts.map Part.entry)) := by
  have hentries : toEntries (level + 1) (parts.map Part.nodes) =
      some ([], parts.map fun part =>
        { key := .ok (.text part.key), value := .ok part.value }) := by
    clear hdistinct
    induction parts with
    | nil => rfl
    | cons part parts ih =>
        obtain ⟨hpart, hrest⟩ := List.forall_mem_cons.mp hvalues
        have hkey : (ofText part.key).isMerge = false := rfl
        rw [List.map_cons, Part.nodes, toEntries, hkey, if_neg Bool.false_ne_true, ih hrest, hpart]
        rfl
  have hbuild : (parts.map fun part =>
        ({ key := .ok (.text part.key), value := .ok part.value } : Entry)).map Entry.build =
      (parts.map Part.entry).map .ok := by
    simp [Entry.build, Built.both, Part.entry]
  simp only [toValue, hentries, List.nil_append]
  rw [hbuild, all_ok]
  show Except.ok (Value.map (Table.ofList _)) = _
  rw [Table.ofList_eq_self hdistinct]

end Node
end Yaml
end Polyglot
