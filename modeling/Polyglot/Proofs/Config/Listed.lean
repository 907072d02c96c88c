/-
Extensions that are listed in one text.

Items stand between commas, and the first sign of an item parts an extension from its language.  A
comma between two lists therefore puts their entries after one another, and the table of both is the
second one written over the first (`parseExtensions_append`).  Blanks around the two parts and dots
in front of the extension are dropped, so a table that has none of them, and no separator in the
wrong place, is read back as it was written (`parseExtensions_listed`).
-/
import Polyglot.Config
import Polyglot.Proofs.Table
import Polyglot.Proofs.Text.Blank
import Polyglot.Proofs.Text.Split

namespace Polyglot

namespace Config

open Table (keys find? contains Distinct update)

/-- The entry that an item gives, if it gives one. -/
def entryOf? (item : String) : Option (String × String) :=
  match Text.cut? '=' item with
  | none => none
  | some (ext, name) =>
      let ext := Text.dropDots (Text.strip ext)
      if ext.isEmpty then none else some (ext, Text.strip name)

/-- An entry as an item of a list. -/
def itemOf (e : String × String) : String := e.1 ++ "=" ++ e.2

theorem parseExtensions_eq (value : String) :
    parseExtensions value = Table.ofList ((Text.fields ',' value).filterMap entryOf?) := rfl

theorem distinct_parseExtensions (value : String) : Distinct (parseExtensions value) :=
  Table.distinct_ofList _

/-! ## Two lists -/

theorem parseExtensions_append (a b : String) :
    parseExtensions (a ++ "," ++ b) = update (parseExtensions a) (parseExtensions b) := by
  have hfields : Text.fields ',' (a ++ "," ++ b) = Text.fields ',' a ++ Text.fields ',' b :=
    Text.fields_append ',' a b
  rw [parseExtensions_eq, hfields, List.filterMap_append, Table.ofList, Table.update_append]
  exact (Table.update_update (distinct_parseExtensions a) Table.distinct_nil _).symm

/-! ## The extensions of a list -/

/-- An extension that can be the key of an item. -/
structure IsKey (ext : String) : Prop where
  nonempty : ext ≠ ""
  bare : Text.isBare ext = true
  unparted : ',' ∉ ext.toList
  unsigned : '=' ∉ ext.toList

theorem isKey_of_entryOf? {item : String} {e : String × String} (h : entryOf? item = some e)
    (hitem : ',' ∉ item.toList) : IsKey e.1 := by
  rw [entryOf?] at h
  split at h
  · cases h
  · rename_i ext name hcut
    obtain ⟨hsub, hsign⟩ := Text.cut?_eq_some hcut
    have hkept : (Text.dropDots (Text.strip ext)).toList.Sublist ext.toList :=
      (Text.dropDots_sublist _).trans (Text.strip_sublist ext)
    dsimp only at h
    split at h
    · cases h
    · rename_i hne
      rw [Option.some.injEq] at h
      rw [← h]
      refine ⟨?_, Text.isBare_dropDots _, ?_, ?_⟩
      · simpa using hne
      · intro hmem
        exact hitem (hsub.mem (hkept.mem hmem))
      · intro hmem
        exact hsign (hkept.mem hmem)

theorem isKey_of_mem_parseExtensions {value ext : String}
    (h : ext ∈ keys (parseExtensions value)) : IsKey ext := by
  rw [parseExtensions_eq, Table.mem_keys_ofList] at h
  obtain ⟨e, he, rfl⟩ := List.mem_map.mp h
  obtain ⟨item, hitem, hentry⟩ := List.mem_filterMap.mp he
  obtain ⟨piece, hpiece, rfl⟩ := List.mem_map.mp hitem
  apply isKey_of_entryOf? hentry
  rw [String.toList_ofList]
  exact Text.not_mem_of_mem_split hpiece

/-! ## A table and its list -/

/-- An entry that stands for itself in a list. -/
structure IsListable (e : String × String) : Prop where
  key : IsKey e.1
  keyTrimmed : Text.isTrimmed e.1 = true
  valueUnparted : ',' ∉ e.2.toList
  valueTrimmed : Text.isTrimmed e.2 = true

theorem entryOf?_itemOf {e : String × String} (h : IsListable e) :
    entryOf? (itemOf e) = some e := by
  have hcut : Text.cut? '=' (itemOf e) = some (e.1, e.2) := Text.cut?_of_not_mem h.key.unsigned e.2
  have hext : Text.dropDots (Text.strip e.1) = e.1 := by
    rw [Text.strip_of_isTrimmed h.keyTrimmed, Text.dropDots_of_isBare h.key.bare]
  have hne : ¬e.1.isEmpty = true := by simpa using h.key.nonempty
  rw [entryOf?, hcut]
  dsimp only
  rw [hext, if_neg hne, Text.strip_of_isTrimmed h.valueTrimmed]

theorem not_mem_itemOf {e : String × String} (h : IsListable e) : ',' ∉ (itemOf e).toList := by
  have hkey := h.key.unparted
  have hvalue := h.valueUnparted
  simp [itemOf, hkey, hvalue]

theorem parseExtensions_listed {t : Table String String} (hdistinct : Distinct t)
    (h : ∀ e ∈ t, IsListable e) : parseExtensions (",".intercalate (t.map itemOf)) = t := by
  by_cases hnil : t = []
  · rw [hnil]
    decide +kernel
  · have hitems : ∀ item ∈ t.map itemOf, ',' ∉ item.toList := by
      intro item hitem
      obtain ⟨e, he, rfl⟩ := List.mem_map.mp hitem
      exact not_mem_itemOf (h e he)
    have hfields : Text.fields ',' (",".intercalate (t.map itemOf)) = t.map itemOf :=
      Text.fields_intercalate (by simpa using hnil) hitems
    have hentries : (t.map itemOf).filterMap entryOf? = t := by
      rw [List.filterMap_map]
      calc t.filterMap (entryOf? ∘ itemOf)
          = t.filterMap some := List.filterMap_congr fun e he => entryOf?_itemOf (h e he)
        _ = t := List.filterMap_some
    rw [parseExtensions_eq, hfields, hentries, Table.ofList_eq_self hdistinct]

/-- What a list of extensions is read as.  A list that goes on after a comma is the table of the
first part with that of the second written over it: extensions that are there keep their place and
take the later language, new ones follow.  Every extension that is read is not empty, has no dot in
front, and neither a comma nor a sign in it.  And a table with such extensions is read back from its
list, in its order, if no blank stands around an extension or a language and no language has a
comma. -/
theorem parseExtensions_by_entries :
    (∀ a b, parseExtensions (a ++ "," ++ b) = update (parseExtensions a) (parseExtensions b) ∧
      keys (parseExtensions (a ++ "," ++ b)) =
        keys (parseExtensions a) ++
          (keys (parseExtensions b)).filter (fun ext => !contains (parseExtensions a) ext) ∧
      ∀ ext, find? (parseExtensions (a ++ "," ++ b)) ext =
        (find? (parseExtensions b) ext).or (find? (parseExtensions a) ext)) ∧
    (∀ value, ∀ ext ∈ keys (parseExtensions value), IsKey ext) ∧
    ∀ t : Table String String, Distinct t → (∀ e ∈ t, IsListable e) →
      parseExtensions (",".intercalate (t.map itemOf)) = t := by
  refine ⟨?_, ?_, ?_⟩
  · intro a b
    have hb := distinct_parseExtensions b
    rw [parseExtensions_append]
    exact ⟨rfl, Table.keys_update _ hb, Table.find?_update_of_distinct _ hb⟩
  · intro value ext hext
    exact isKey_of_mem_parseExtensions hext
  · intro t hdistinct h
    exact parseExtensions_listed hdistinct h

/-- Extensions may have dots inside, and languages may be empty or have signs. -/
theorem parseExtensions_by_entries_sample :
    let t : Table String String := [("d.ts", "a=b"), ("x", "")]
    Distinct t ∧ (∀ e ∈ t, IsListable e) ∧ parseExtensions "d.ts=a=b,x=" = t ∧
      IsKey "d.ts" := by
  intro t
  have hdistinct : Distinct t := by
    unfold Distinct
    decide +kernel
  have hlistable : ∀ e ∈ t, IsListable e := by
    intro e he
    rcases List.mem_cons.mp he with rfl | he
    · exact ⟨⟨by decide, by decide, by decide, by decide⟩, by decide +kernel, by decide,
        by decide +kernel⟩
    · rw [List.mem_singleton.mp he]
      exact ⟨⟨by decide, by decide, by decide, by decide⟩, by decide +kernel, by decide,
        by decide +kernel⟩
  have hread : parseExtensions "d.ts=a=b,x=" = t :=
    parseExtensions_by_entries.2.2 t hdistinct hlistable
  refine ⟨hdistinct, hlistable, hread, ?_⟩
  apply parseExtensions_by_entries.2.1 "d.ts=a=b,x="
  rw [hread]
  exact List.mem_cons_self

/-- Items without a sign or an extension are passed over, and the later of two entries counts. -/
example : parseExtensions " ..pyi = python ,mjs, =go,x=y,pyi=rust" =
    [("pyi", "rust"), ("x", "y")] := by
  decide +kernel

end Config
end Polyglot
