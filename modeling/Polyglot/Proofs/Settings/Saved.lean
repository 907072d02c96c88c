/-
What is saved reads back.

The document of a configuration holds its tables and lists in a fixed order, so its tokens, its node
and its value can be written down.  Reading it gives the configuration's data again, without a
notice, but for one thing: a key that shares a line with its value is found again only if it is
written with no more than 1024 characters (`Config.isLegible`).  The writer takes the short way for
keys below a number of characters before they are escaped, so a key of a hundred and some characters
that are all escaped makes a document that cannot be read, and the file is passed over.
-/
import Polyglot.Proofs.Settings.Change
import Polyglot.Proofs.Settings.Layers
import Polyglot.Proofs.Yaml.Nodes

namespace Polyglot

/-- A text that begins with no byte order mark is scanned from its beginning. -/
theorem Yaml.Token.scan_of_head {text : List Char} (h : text.head? ≠ some '\uFEFF') :
    Token.scan text = Scan.run (text.length + 1) { rest := text } := by
  unfold Token.scan
  split
  · exact absurd rfl h
  · rfl

namespace Config

open Yaml Yaml.Writer Yaml.Node

variable (c : Config)

/-! ## Parts of the document -/

def namesPart : Part :=
  { key := "names", tokens := listTokens c.names, node := .sequence .seq (c.names.map ofText),
    value := .list (c.names.map fun name => .scalar (.text name)) }

def extensionsPart : Part :=
  let parts := (sorted c.extensions).map entryPart
  { key := "extensions", tokens := tableTokens (sorted c.extensions),
    node := .mapping .map (parts.map Part.nodes), value := .map (parts.map Part.entry) }

/-- A key over a mapping of one part. -/
def holding (key : String) (part : Part) : Part :=
  { key, tokens := mappingTokens [part], node := .mapping .map [part.nodes],
    value := .map [part.entry] }

def parts : List Part := [holding "highlight" c.namesPart, holding "languages" c.extensionsPart]

/-- Every key that shares a line with its value is short enough to be found again. -/
def isLegible : Bool := c.extensions.all (fitsLine 4)

/-! ## Tokens -/

theorem isName_highlight : Scan.IsName "highlight" :=
  Scan.isName_of_head (by decide +kernel) (by decide) (by decide)

theorem isName_names : Scan.IsName "names" :=
  Scan.isName_of_head (by decide +kernel) (by decide) (by decide)

theorem isName_languages : Scan.IsName "languages" :=
  Scan.isName_of_head (by decide +kernel) (by decide) (by decide)

theorem isName_extensions : Scan.IsName "extensions" :=
  Scan.isName_of_head (by decide +kernel) (by decide) (by decide)

/-- The text of a document, cut where its lines begin. -/
theorem toList_document :
    c.document.toList =
      Scan.twoSections "highlight" "names" c.names "languages" "extensions" c.extensions := by
  have hhighlight : "highlight:\n".toList = "highlight".toList ++ [':', '\n'] := by decide
  have hlanguages : "languages:\n".toList = "languages".toList ++ [':', '\n'] := by decide
  let list := Yaml.Writer.list 2 "names" c.names
  let table := Yaml.Writer.table 2 "extensions" c.extensions
  calc c.document.toList
      = "highlight:\n".toList ++ list ++ "languages:\n".toList ++ table := String.toList_ofList
    _ = "highlight".toList ++ [':', '\n'] ++ list ++ "languages:\n".toList ++ table :=
        congrArg (fun first => first ++ list ++ "languages:\n".toList ++ table) hhighlight
    _ = "highlight".toList ++ [':', '\n'] ++ list ++ ("languages".toList ++ [':', '\n']) ++ table :=
        congrArg (fun second => "highlight".toList ++ [':', '\n'] ++ list ++ second ++ table)
          hlanguages
    _ = Scan.twoSections "highlight" "names" c.names "languages" "extensions" c.extensions := by
        simp only [List.append_assoc, List.cons_append, List.nil_append]
        rfl

theorem isWritten_document : Scan.IsWritten c.document.toList := by
  rw [toList_document]
  exact Scan.isWritten_twoSections isName_highlight isName_names isName_languages isName_extensions
    c.names c.extensions

theorem isLegible_eq_sorted : c.isLegible = (sorted c.extensions).all (fitsLine 4) := by
  rw [isLegible, (sorted_perm c.extensions).all_eq]

/-- The tokens of a document that can be read. -/
def tokens : List Token :=
  .blockMappingStart :: (c.parts.flatMap Part.all ++ [.blockEnd, .streamEnd])

/-- The tokens before the first key that is too long. -/
def tokensBeforeFault : List Token :=
  .blockMappingStart :: ([holding "highlight" c.namesPart].flatMap Part.all ++
    (keyTokens "languages" ++ (.blockMappingStart :: (keyTokens "extensions" ++
      startTokens ((sorted c.extensions).takeWhile (fitsLine 4))))))

theorem scan_document :
    Token.scan c.document.toList =
      if c.isLegible then (c.tokens, none) else (c.tokensBeforeFault, some .malformed) := by
  have hall : c.tokens = Scan.sectionTokens "highlight" "names" c.names "languages" ++
      (keyTokens "extensions" ++ tableTokens (sorted c.extensions) ++
        [.blockEnd, .blockEnd, .streamEnd]) := by
    simp [tokens, Scan.sectionTokens, parts, holding, Part.all, mappingTokens, namesPart,
      extensionsPart]
  have hbefore : c.tokensBeforeFault =
      Scan.sectionTokens "highlight" "names" c.names "languages" ++ (keyTokens "extensions" ++
        startTokens ((sorted c.extensions).takeWhile (fitsLine 4))) := by
    simp [tokensBeforeFault, Scan.sectionTokens, holding, Part.all, mappingTokens, namesPart]
  have hends : Scan.Ends { rest := c.document.toList }
      (if c.isLegible then (c.tokens, none) else (c.tokensBeforeFault, some .malformed)) := by
    rw [hall, hbefore, isLegible_eq_sorted, toList_document]
    exact Scan.ends_twoSections isName_highlight isName_names isName_languages isName_extensions
  have hmark : c.document.toList.head? ≠ some '\uFEFF' := by
    intro hhead
    rcases c.isWritten_document _ (List.mem_of_head? hhead) with hvisible | hfeed
    · cases hvisible
    · cases hfeed
  rw [Token.scan_of_head hmark]
  exact hends _ (Nat.lt_succ_self _)

/-! ## The value of a document -/

theorem reads_namesPart :
    Reads (c.names.length + 7) standardScope c.namesPart.tokens c.namesPart.node :=
  reads_list c.names

theorem reads_extensionsPart :
    Reads (c.extensions.length + 11) standardScope c.extensionsPart.tokens
      c.extensionsPart.node := by
  rw [← (sorted_perm c.extensions).length_eq]
  exact reads_table (sorted c.extensions)

theorem reads_holding {n : Nat} {part : Part} (h : Reads n standardScope part.tokens part.node)
    (key : String) :
    Reads (n + 9) standardScope (holding key part).tokens (holding key part).node := by
  have hparts : ∀ p ∈ [part], Reads n standardScope p.tokens p.node := by simpa using h
  exact reads_mapping hparts

theorem ofTokens_tokens :
    Node.ofTokens c.tokens = .ok (some (.mapping .map (c.parts.map Part.nodes))) := by
  have hnames := length_le_listTokens c.names
  have hextensions := length_le_tableTokens (sorted c.extensions)
  rw [(sorted_perm c.extensions).length_eq] at hextensions
  refine ofTokens_mapping (n := c.names.length + c.extensions.length + 20) (fun part hpart => ?_) ?_
  · simp only [parts, List.mem_cons, List.not_mem_nil, or_false] at hpart
    rcases hpart with rfl | rfl
    · exact (reads_holding c.reads_namesPart _).mono (by omega)
    · exact (reads_holding c.reads_extensionsPart _).mono (by omega)
  · simp [parts, holding, Part.all, keyTokens, mappingTokens, namesPart, extensionsPart]
    omega

theorem ofTokens_tokensBeforeFault :
    Node.ofTokens c.tokensBeforeFault = .error .exhausted := by
  rw [tokensBeforeFault]
  generalize (sorted c.extensions).takeWhile (fitsLine 4) = before
  have hnames := length_le_listTokens c.names
  have hstart := length_le_startTokens before
  have hbreaks : Breaks (before.length + 9 + 9) standardScope
      (.blockMappingStart :: (keyTokens "extensions" ++ startTokens before)) :=
    breaks_mapping (breaks_start before)
  refine ofTokens_breaks (n := c.names.length + before.length + 18) (fun part hpart => ?_)
    (fun m hm => hbreaks m (by omega)) ?_
  · obtain rfl := List.mem_singleton.mp hpart
    exact (reads_holding c.reads_namesPart _).mono (by omega)
  · simp [holding, Part.all, keyTokens, mappingTokens, namesPart]
    omega

theorem map_entry_entryPart (t : Table String String) :
    (t.map entryPart).map Part.entry = t.map aliasEntry := by
  rw [List.map_map]
  rfl

theorem distinct_sorted {t : Table String String} (h : Table.Distinct t) :
    Table.Distinct (sorted t) := by
  have hsymm {a b : String} (hab : (a == b) = false) : (b == a) = false := by
    rw [BEq.comm]
    exact hab
  exact (((sorted_perm t).map Prod.fst).pairwise_iff hsymm).mpr h

theorem toValue_holding {level : Nat} {part : Part}
    (h : Node.toValue (level + 1) part.node = .ok part.value) (key : String) :
    Node.toValue level (holding key part).node = .ok (holding key part).value := by
  have hparts : ∀ p ∈ [part], Node.toValue (level + 1) p.node = .ok p.value := by simpa using h
  exact toValue_mapping hparts (List.pairwise_singleton _ _)

theorem toValue_parts (hdistinct : Table.Distinct c.extensions) :
    Node.toValue 0 (.mapping .map (c.parts.map Part.nodes)) =
      .ok (.map (c.parts.map Part.entry)) := by
  refine toValue_mapping (fun part hpart => ?_) ?_
  · simp only [parts, List.mem_cons, List.not_mem_nil, or_false] at hpart
    rcases hpart with rfl | rfl
    · exact toValue_holding (toValue_texts 2 c.names) _
    · refine toValue_holding (toValue_mapping (fun part hpart => ?_) ?_) _
      · obtain ⟨entry, -, rfl⟩ := List.mem_map.mp hpart
        exact toValue_ofText 3 entry.2
      · rw [map_entry_entryPart]
        exact distinct_map_aliasEntry (distinct_sorted hdistinct)
  · refine List.pairwise_pair.mpr ((textKey_beq_textKey "highlight" "languages").trans ?_)
    decide

theorem unifyBreaks_of_isWritten {text : List Char} (h : Scan.IsWritten text) :
    unifyBreaks text = text := by
  induction text with
  | nil => rfl
  | cons d rest ih =>
      obtain ⟨hd, hrest⟩ := Scan.isWritten_cons.mp h
      have hreturn : d ≠ '\r' := by
        rintro rfl
        rcases hd with hd | hd <;> cases hd
      unfold unifyBreaks
      split
      · rename_i heq
        cases heq
      · rename_i heq
        exact absurd (List.cons.inj heq).1 hreturn
      · rename_i heq
        obtain ⟨rfl, rfl⟩ := List.cons.inj heq
        rw [if_neg hreturn, ih hrest]

theorem isAllowed_of_isWritten {text : List Char} (h : Scan.IsWritten text) :
    text.all isAllowed = true := by
  refine List.all_eq_true.mpr fun d hd => ?_
  rcases h d hd with hvisible | rfl
  · exact isAllowed_of_isVisible hvisible
  · decide

/-- A document reads back if its keys are short enough, and is malformed otherwise. -/
theorem read_document (hdistinct : Table.Distinct c.extensions) :
    Yaml.read c.document =
      if c.isLegible then .ok (.map (c.parts.map Part.entry)) else .error .malformed := by
  have hwritten := c.isWritten_document
  rw [Yaml.read, unifyBreaks_of_isWritten hwritten]
  simp only [isAllowed_of_isWritten hwritten, if_true, scan_document]
  cases c.isLegible with
  | true => simp only [if_true, ofTokens_tokens, toValue_parts c hdistinct]
  | false =>
      simp only [Bool.false_eq_true, if_false, ofTokens_tokensBeforeFault]
      rfl

/-! ## The data of a file -/

/-- The data of a configuration, up to the order of its extensions and of its two sections. -/
def ReadsBack (data : Section) : Prop :=
  ∃ table, List.Perm table c.extensions ∧
    List.Perm data { c with extensions := table }.toSection

theorem data_document (layer : Layer) (hdistinct : Table.Distinct c.extensions) :
    (File.text c.document).data layer =
      if c.isLegible then .ok (c.parts.map Part.entry, []) else .ok ([], [.fileSkipped layer]) := by
  rw [File.data, read_document c hdistinct]
  cases c.isLegible <;> rfl

theorem readsBack_parts : c.ReadsBack (c.parts.map Part.entry) := by
  refine ⟨sorted c.extensions, sorted_perm c.extensions, ?_⟩
  have hparts : c.parts.map Part.entry =
      ({ c with extensions := sorted c.extensions }.toSection).reverse := by
    show [_, (_, Value.map [(_, .map (((sorted c.extensions).map entryPart).map Part.entry))])] = _
    rw [map_entry_entryPart]
    rfl
  rw [hparts]
  exact List.reverse_perm _

end Config

/-- What is written to a file can be read from it. -/
def File.keepsTexts : File → Bool
  | .sealed | .sink => false
  | _ => true

theorem File.written_eq (file : File) (text : String) :
    file.written text = if file.keepsTexts then .text text else file := by
  cases file <;> rfl

@[simp] theorem Store.file_put (s : Store) (layer : Layer) (file : File) :
    (s.put layer file).file layer = file := by
  cases layer <;> rfl

namespace Settings

open Yaml.Writer

theorem file_of_save {s : Settings} {c : Config} {layer : Layer}
    (h : (save layer c s).result = .ok ()) :
    (save layer c s).state.store.file layer = (s.store.file layer).written c.document := by
  rw [save_eq] at h ⊢
  rcases hwrite : s.store.write layer c.document with ⟨store, _ | fault⟩
  · show store.file layer = _
    rw [Store.write_succeeds hwrite, Store.file_put]
  · rw [hwrite] at h
    cases h

/-- A saved configuration is read back, all of it and without a notice, just if every key that
shares a line with its value is short enough.  Otherwise the file is passed over with a notice.  A
file that keeps no texts is what it was. -/
theorem saved_reads_back {s : Settings} {c : Config} {layer : Layer}
    (hdistinct : Table.Distinct c.extensions) (hsave : (save layer c s).result = .ok ()) :
    let file := (save layer c s).state.store.file layer
    ((s.store.file layer).keepsTexts = true →
      (c.isLegible = true ↔ ∃ data, file.data layer = .ok (data, []) ∧ c.ReadsBack data) ∧
      (c.isLegible = false → file.data layer = .ok ([], [.fileSkipped layer]))) ∧
    ((s.store.file layer).keepsTexts = false → file = s.store.file layer) := by
  intro file
  have hfile : file = if (s.store.file layer).keepsTexts then .text c.document
      else s.store.file layer := (file_of_save hsave).trans (File.written_eq _ _)
  refine ⟨fun hkeeps => ?_, fun hkeeps => by rw [hfile, hkeeps, if_neg Bool.false_ne_true]⟩
  rw [hfile, hkeeps, if_pos rfl, c.data_document layer hdistinct]
  cases c.isLegible with
  | true =>
      refine ⟨iff_of_true rfl ⟨_, rfl, c.readsBack_parts⟩, fun h => ?_⟩
      cases h
  | false =>
      refine ⟨iff_of_false Bool.false_ne_true ?_, fun _ => rfl⟩
      rintro ⟨data, hdata, -⟩
      cases hdata

namespace Sample

/-- Keys, values and names that would read as something else if they were not quoted. -/
def quoted : Config where
  extensions := [("a: b", "no"), ("", " x"), ("\n", "1"), ("<<", "~")]
  names := ["", "null", "2001-01-01", "- é", "'\""]

/-- Few enough characters for a key on one line, each of which is written with ten. -/
def faces : List Char := List.replicate 103 (Char.ofNat 0x1F600)

def escaped : Config where
  extensions := [(String.ofList faces, "go")]
  names := ["keyword"]

end Sample

theorem saved_reads_back_quoted :
    ∃ data, ((save .user Sample.quoted {}).state.store.file .user).data .user = .ok (data, []) ∧
      Sample.quoted.ReadsBack data := by
  have hdistinct : Table.Distinct Sample.quoted.extensions := by
    simp [Table.Distinct, Table.keys, Sample.quoted]
  have hlegible : Sample.quoted.isLegible = true := by decide +kernel
  exact ((saved_reads_back hdistinct (by rw [save_eq]; rfl)).1 rfl).1.mp hlegible

/-- A key of few characters that are all escaped is too long for one line. -/
theorem fitsLine_eq_false {column : Nat} {chars : List Char} (value : String)
    (hshort : chars.length < keyLimit) (hempty : chars ≠ [])
    (hbreak : chars.any Yaml.isBreak = false)
    (hplain : allowsPlain chars = false) (hsingle : allowsSingle chars = false)
    (hlong : 1022 < (double none true false (column + 1) chars).length) :
    fitsLine column (String.ofList chars, value) = false := by
  have hkey : isSimpleKey (String.ofList chars) = true := by
    simp [isSimpleKey, hshort, hempty, hbreak]
  have hstyle : style (String.ofList chars) = .double := by
    simp [style, hplain, hsingle]
  simp only [fitsLine, hkey, scalar, hstyle, String.toList_ofList, List.cons_append,
    List.length_cons, List.length_append, List.length_nil, Bool.not_true, Bool.false_or,
    decide_eq_false_iff_not]
  omega

theorem fitsLine_faces : fitsLine 4 (String.ofList Sample.faces, "go") = false :=
  fitsLine_eq_false "go" (by decide +kernel) (by decide +kernel) (by decide +kernel)
    (by decide +kernel) (by decide +kernel) (by decide +kernel)

/-- A configuration that is saved without a fault and cannot be read. -/
theorem escaped_key_is_lost :
    (save .project Sample.escaped {}).result = .ok () ∧
    ((save .project Sample.escaped {}).state.store.file .project).data .project =
      .ok ([], [.fileSkipped .project]) := by
  have hsave : (save .project Sample.escaped {}).result = .ok () := by
    rw [save_eq]
    rfl
  have hdistinct : Table.Distinct Sample.escaped.extensions := List.pairwise_singleton _ _
  have hlegible : Sample.escaped.isLegible = false := by
    rw [Config.isLegible, Sample.escaped, List.all_cons, fitsLine_faces, Bool.false_and]
  refine ⟨hsave, ?_⟩
  have hfile : (save .project Sample.escaped {}).state.store.file .project =
      .text Sample.escaped.document := file_of_save hsave
  rw [hfile, Config.data_document _ .project hdistinct, hlegible]
  rfl

end Settings
end Polyglot
