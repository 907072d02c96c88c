/-
Entries of the wrong kind, in layers.

An entry that is not of the kind that is wanted at its place is reported and ignored.  Kinds are
looked at when the layers have been merged, though, and by then the entry stands where the layers
below had theirs.  So the setting does not go back to what those layers say, but to its default: the
entry is ignored in the full sense just where the layers below say nothing else
(`reported_entry_means_default`).
-/
import Polyglot.Proofs.Settings.Skipped

namespace Polyglot

open Table (find?)
open Value (WellKeyed)

namespace Config

/-! ## Entries in merged data -/

/-- Data over other data passes the setting of a side on: it holds a table, or nothing, at the
section, and no entry for the setting. -/
def Side.PassesOn (upper : Section) (side : Side) : Prop :=
  isTableAt upper side.name = true ∧ (Place.setting side).entryAt upper = none

theorem Side.passesOn_of_find? {upper : Section} {side : Side}
    (h : find? upper (textKey side.name) = none) : side.PassesOn upper := by
  refine ⟨?_, ?_⟩
  · rw [isTableAt, h]
  · show find? (tableAt upper side.name) _ = none
    rw [tableAt, h]
    rfl

section Merge

variable {base base' upper upper' : Section} {side : Side} {place : Place}

theorem entryAt_setting_merge (hupper : WellKeyed (.map upper)) (base : Section) (side : Side) :
    (Place.setting side).entryAt (Value.merge base upper) =
      if isTableAt upper side.name then
        match (Place.setting side).entryAt upper with
        | some v => some (v.override ((Place.setting side).entryAt base))
        | none => (Place.setting side).entryAt base
      else none := by
  show find? (tableAt (Value.merge base upper) side.name) (textKey side.key) = _
  rw [tableAt_merge base hupper]
  by_cases htable : isTableAt upper side.name = true
  · rw [if_pos htable, if_pos htable]
    exact Value.find?_merge _ (wellKeyed_tableAt hupper side.name).distinct _
  · rw [if_neg htable, if_neg htable]
    rfl

theorem Side.PassesOn.entryAt_merge (h : side.PassesOn upper) (hupper : WellKeyed (.map upper))
    (base : Section) :
    (Place.setting side).entryAt (Value.merge base upper) = (Place.setting side).entryAt base := by
  rw [entryAt_setting_merge hupper, if_pos h.1, h.2]

/-- Data that says nothing at a place passes the setting on, if the merged data does say something
there. -/
theorem Place.passesOn (hupper : WellKeyed (.map upper)) {v : Value}
    (hmerged : place.entryAt (Value.merge base upper) = some v) (h : place.entryAt upper = none) :
    place.side.PassesOn upper := by
  cases place with
  | whole side => exact Side.passesOn_of_find? h
  | setting side =>
      refine ⟨?_, h⟩
      show isTableAt upper side.name = true
      by_contra htable
      rw [entryAt_setting_merge hupper, if_neg htable] at hmerged
      cases hmerged

/-- What data says at a place is heard, whatever is below it. -/
theorem Place.entryAt_merge_of_some (hupper : WellKeyed (.map upper)) {v : Value}
    (h : place.entryAt upper = some v) (base : Section) :
    ∃ old, place.entryAt (Value.merge base upper) = some (v.override old) := by
  cases place with
  | whole side =>
      refine ⟨find? base (textKey side.name), ?_⟩
      show find? (Value.merge base upper) (textKey side.name) = _
      rw [Value.find?_merge base hupper.distinct,
        show find? upper (textKey side.name) = some v from h]
  | setting side =>
      refine ⟨(Place.setting side).entryAt base, ?_⟩
      have htable : isTableAt upper side.name = true := by
        by_contra hother
        have hnil := tableAt_of_not_isTableAt (Bool.eq_false_iff.mpr hother)
        rw [Place.entryAt, hnil] at h
        cases h
      rw [entryAt_setting_merge hupper, if_pos htable, h]

/-- Merged data says of a setting what its layers say. -/
theorem entryAt_setting_merge_congr (hupper : WellKeyed (.map upper))
    (hupper' : WellKeyed (.map upper'))
    (hbase : (Place.setting side).entryAt base = (Place.setting side).entryAt base')
    (h : find? upper (textKey side.name) = find? upper' (textKey side.name)) :
    (Place.setting side).entryAt (Value.merge base upper) =
      (Place.setting side).entryAt (Value.merge base' upper') := by
  have htable : isTableAt upper side.name = isTableAt upper' side.name := by
    rw [isTableAt, h, ← isTableAt]
  have hentry : (Place.setting side).entryAt upper = (Place.setting side).entryAt upper' := by
    rw [Place.entryAt, Place.entryAt, tableAt, h, ← tableAt]
  rw [entryAt_setting_merge hupper, entryAt_setting_merge hupper', htable, hentry, hbase]

theorem Place.passesOn_remove {v : Value} (h : place.entryAt upper = some v) :
    place.side.PassesOn (place.remove upper) := by
  cases place with
  | whole side =>
      refine Side.passesOn_of_find? ?_
      show find? (Table.erase upper (textKey side.name)) (textKey side.name) = none
      rw [Table.find?_erase, if_pos BEq.rfl]
  | setting side =>
      rw [Place.entryAt, tableAt] at h
      split at h
      · rename_i entries hfind
        have hremove : find? ((Place.setting side).remove upper) (textKey side.name) =
            some (.map (Table.erase entries (textKey side.key))) := by
          rw [Place.remove, hfind]
          exact Table.find?_insert_self _ _ _
        refine ⟨?_, ?_⟩
        · show isTableAt ((Place.setting side).remove upper) side.name = true
          rw [isTableAt, hremove]
        · show find? (tableAt ((Place.setting side).remove upper) side.name) (textKey side.key) = none
          rw [tableAt, hremove]
          show find? (Table.erase entries (textKey side.key)) (textKey side.key) = none
          rw [Table.find?_erase, if_pos BEq.rfl]
      · cases h

/-- The other section is left as it is. -/
theorem Place.find?_remove_other (place : Place) (upper : Section) :
    find? (place.remove upper) (textKey place.side.other.name) =
      find? upper (textKey place.side.other.name) := by
  have hne : ¬ (textKey place.side.other.name == textKey place.side.name) = true := by
    rw [textKey_beq]
    exact place.side.name_other_ne
  cases place with
  | whole side =>
      show find? (Table.erase upper (textKey side.name)) _ = _
      rw [Table.find?_erase]
      exact if_neg hne
  | setting side =>
      rw [Place.remove]
      split
      · rw [Table.find?_insert]
        exact if_neg hne
      · rfl

end Merge

/-! ## Data without an entry -/

section Without

variable {below upper above : Section} {place : Place} {v : Value}

/-- Without its entry, data in the middle leaves the setting to the data below it. -/
theorem agrees_below (hremoved : WellKeyed (.map (place.remove upper)))
    (habove : WellKeyed (.map above)) (hentry : place.entryAt upper = some v)
    (hpasses : place.side.PassesOn above) (below : Section) :
    place.side.Agrees
      (ofSection (Value.merge (Value.merge below (place.remove upper)) above)).1
      (ofSection below).1 := by
  refine agrees_of_entryAt ?_
  rw [hpasses.entryAt_merge habove, (Place.passesOn_remove hentry).entryAt_merge hremoved]

/-- An entry above that is not accepted keeps the setting at its default, with and without the
entry in the middle. -/
theorem agrees_default_of_above (habove : WellKeyed (.map above)) (base base' : Section)
    (hentry : place.entryAt above = some v)
    (hreported : ∃ w, place.entryAt (Value.merge base above) = some w ∧ place.accepts w = false) :
    place.side.Agrees (ofSection (Value.merge base' above)).1 {} := by
  obtain ⟨old, hold⟩ := Place.entryAt_merge_of_some habove hentry base
  obtain ⟨old', hnew⟩ := Place.entryAt_merge_of_some habove hentry base'
  obtain ⟨w, hw, haccepts⟩ := hreported
  obtain rfl : v.override old = w := Option.some.inj (hold.symm.trans hw)
  refine Place.agrees_default hnew ?_
  rw [Place.accepts_override, ← Place.accepts_override place old v]
  exact haccepts

theorem agrees_other (hupper : WellKeyed (.map upper))
    (hremoved : WellKeyed (.map (place.remove upper))) (habove : WellKeyed (.map above)) :
    place.side.other.Agrees (ofSection (Value.merge (Value.merge below upper) above)).1
      (ofSection (Value.merge (Value.merge below (place.remove upper)) above)).1 := by
  refine agrees_of_entryAt ?_
  refine entryAt_setting_merge_congr habove habove ?_ rfl
  exact entryAt_setting_merge_congr hupper hremoved rfl (place.find?_remove_other upper).symm

/-- Removing a reported entry changes nothing just where another entry above is what counts, or the
data below has the setting at its default. -/
theorem eq_without_iff (hupper : WellKeyed (.map upper))
    (hremoved : WellKeyed (.map (place.remove upper))) (habove : WellKeyed (.map above))
    (hentry : place.entryAt upper = some v)
    (hreported : ∃ w, place.entryAt (Value.merge (Value.merge below upper) above) = some w ∧
      place.accepts w = false) :
    (ofSection (Value.merge (Value.merge below upper) above)).1 =
        (ofSection (Value.merge (Value.merge below (place.remove upper)) above)).1 ↔
      place.entryAt above ≠ none ∨ place.side.Agrees (ofSection below).1 {} := by
  obtain ⟨w, hw, haccepts⟩ := hreported
  have hdefault := Place.agrees_default hw haccepts
  rw [Side.eq_iff_agrees place.side, and_iff_left (agrees_other hupper hremoved habove)]
  by_cases hnone : place.entryAt above = none
  · have hbelow := agrees_below hremoved habove hentry (Place.passesOn habove hw hnone) below
    rw [or_iff_right (not_not.mpr hnone)]
    exact ⟨fun h => hbelow.symm.trans (h.symm.trans hdefault),
      fun h => hdefault.trans (hbelow.trans h).symm⟩
  · obtain ⟨v', hv'⟩ := Option.ne_none_iff_exists'.mp hnone
    refine iff_of_true ?_ (.inl hnone)
    exact hdefault.trans (agrees_default_of_above habove _ _ hv' ⟨w, hw, haccepts⟩).symm

end Without

end Config

namespace Store

variable {environment : Environment}

/-- What is said over the file of a layer. -/
def above (store : Store) : Layer → Section
  | .project => []
  | .user => store.project.dataOf .project

/-- What is said below the file of a layer. -/
def under (store : Store) (environment : Environment) : Layer → Section
  | .project => ({ environment, store } : Settings).below
  | .user => environment.data

theorem wellKeyed_above (store : Store) (layer : Layer) : WellKeyed (.map (store.above layer)) := by
  cases layer with
  | project => exact File.absent.wellKeyed_dataOf .project
  | user => exact store.project.wellKeyed_dataOf .project

theorem layered_put (store : Store) (layer : Layer) (file : File) :
    (store.put layer file).layered environment =
      Value.merge (Value.merge (store.under environment layer) (file.dataOf layer))
        (store.above layer) := by
  cases layer with
  | project =>
      show Value.merge _ _ = Value.merge _ []
      rw [Value.merge]
      rfl
  | user => rfl

theorem layered_eq (store : Store) (layer : Layer) :
    store.layered environment =
      Value.merge (Value.merge (store.under environment layer) ((store.file layer).dataOf layer))
        (store.above layer) := by
  have hself : store.put layer (store.file layer) = store := by cases layer <;> rfl
  rw [← layered_put, hself]

/-- A place that a load reports is reported of the merged data. -/
theorem reported_of_mem_load {store : Store} (h : store.Sound) {place : Config.Place} {kind : Kind}
    (hmem : place.notice kind ∈ (store.load environment).notices) :
    place.notice kind ∈ (Config.ofSection (store.layered environment)).2 := by
  have hfile {f : File} {layer : Layer} (hn : place.notice kind ∈ f.noticesOf layer) : False := by
    have hskips := File.skips_of_mem_noticesOf hn layer
    rw [Config.skips_notice, decide_eq_true rfl] at hskips
    cases hskips
  rw [load_of_sound h] at hmem
  obtain (hu | hp) | hdata := (List.mem_append.mp hmem).imp_left List.mem_append.mp
  · exact (hfile hu).elim
  · exact (hfile hp).elim
  · exact hdata

end Store

namespace Settings

open Config (ofSection Place)

/-- An entry that is reported leaves its setting at the default.  Without the entry the rest is the
same, but the setting is what the layers below the file say, unless a file above has an entry at the
same place.  So a reported entry is ignored just where those layers say nothing but the default, or
the entry above is the one that counts. -/
theorem reported_entry_means_default {environment : Environment} {store : Store} {layer : Layer}
    {place : Place} {v : Value} {kind : Kind} {file : File} {c : Config}
    (hload : (load { environment, store }).result = .ok c)
    (hentry : place.entryAt ((store.file layer).dataOf layer) = some v)
    (hreported : place.notice kind ∈ (load { environment, store }).notices)
    (hfile : file.Gives (place.remove ((store.file layer).dataOf layer))) :
    ∃ c', (load { environment, store := store.put layer file }).result = .ok c' ∧
      place.side.Agrees c {} ∧ place.side.other.Agrees c c' ∧
      (place.entryAt (store.above layer) = none →
        place.side.Agrees c' (ofSection (store.under environment layer)).1) ∧
      (c = c' ↔ place.entryAt (store.above layer) ≠ none ∨
        place.side.Agrees (ofSection (store.under environment layer)).1 {}) := by
  rw [(load_new environment store).1] at hload
  rw [(load_new environment store).2] at hreported
  obtain ⟨hsound, rfl⟩ := Store.result_load_eq_ok_iff.mp hload
  have hputs := hsound.put (File.not_breaks_of_gives hfile) layer
  have hdata := File.dataOf_of_gives hfile layer
  have hupper := (store.file layer).wellKeyed_dataOf layer
  have hremoved := hdata ▸ file.wellKeyed_dataOf layer
  have habove := store.wellKeyed_above layer
  obtain ⟨w, hw, haccepts⟩ :=
    Place.entryAt_of_reported (Store.reported_of_mem_load hsound hreported)
  refine ⟨(ofSection ((store.put layer file).layered environment)).1, ?_,
    Place.agrees_default hw haccepts, ?_⟩
  · rw [(load_new environment _).1]
    exact Store.result_load_eq_ok_iff.mpr ⟨hputs, rfl⟩
  · rw [store.layered_put, hdata]
    rw [store.layered_eq layer] at hw ⊢
    refine ⟨Config.agrees_other hupper hremoved habove, fun hnone => ?_, ?_⟩
    · exact Config.agrees_below hremoved habove hentry (Place.passesOn habove hw hnone) _
    · exact Config.eq_without_iff hupper hremoved habove hentry ⟨w, hw, haccepts⟩

namespace Sample

/-- Both settings in the environment. -/
def spoken : Environment where
  extensions := some "pyi=python"
  names := some "type"

/-- Only an alias in the environment. -/
def halfSpoken : Environment where
  extensions := some "pyi=python"

/-- The user has a text where the section with the highlight names should be. -/
def textualHighlight : Store where
  user := .text "highlight: plain\n"
  project := .text "languages:\n  extensions:\n    mjs: javascript\n"

end Sample

open Sample in
theorem reported_entry_means_default_sample :
    (load { environment := halfSpoken, store := textualHighlight }).notices =
        [.sectionIgnored "highlight" .text] ∧
      (load { environment := halfSpoken, store := textualHighlight }).result =
        .ok { extensions := [("pyi", "python"), ("mjs", "javascript")] } ∧
      (load { environment := halfSpoken, store := textualHighlight.put .user .absent }).result =
        .ok { extensions := [("pyi", "python"), ("mjs", "javascript")] } := by
  have hnotices : (load { environment := halfSpoken, store := textualHighlight }).notices =
      [.sectionIgnored "highlight" .text] := by
    decide +kernel
  have hload : (load { environment := halfSpoken, store := textualHighlight }).result =
      .ok { extensions := [("pyi", "python"), ("mjs", "javascript")] } := by
    decide +kernel
  have hentry : ((Place.whole .highlight).entryAt
      ((textualHighlight.file .user).dataOf .user)).isSome = true := by
    decide +kernel
  have hremoved : File.absent.Gives ((Place.whole .highlight).remove
      ((textualHighlight.file .user).dataOf .user)) := by
    have hempty : ((Place.whole .highlight).remove
        ((textualHighlight.file .user).dataOf .user)).isEmpty = true := by
      decide +kernel
    rw [List.isEmpty_iff.mp hempty]
    exact .absent
  have hreported : (Place.whole .highlight).notice .text ∈
      (load { environment := halfSpoken, store := textualHighlight }).notices := by
    rw [hnotices]
    exact List.mem_singleton_self _
  have hsilent : (Config.ofSection (textualHighlight.under halfSpoken .user)).1.names =
      Highlight.defaultNames := by
    decide +kernel
  obtain ⟨v, hv⟩ := Option.isSome_iff_exists.mp hentry
  obtain ⟨c, hload', -, -, -, heq⟩ := reported_entry_means_default hload hv hreported hremoved
  have hsame := heq.mpr (.inr hsilent)
  exact ⟨hnotices, hload, hsame ▸ hload'⟩

namespace Sample

/-- A list where the section with the extensions should be. -/
def listedLanguages : Store where
  project := .text "languages: [go]\n"

/-- One text where the list of highlight names should be. -/
def textualNames : Store where
  user := .text "highlight:\n  names: keyword\n"

end Sample

open Sample in
/-- A section that is a list, in the project's file, and highlight names that are a text, in the
user's, take away what the environment says of the setting.  Without them it is heard. -/
theorem reported_entry_hides_environment :
    (load { environment := spoken, store := listedLanguages }).notices =
        [.sectionIgnored "languages" .list] ∧
      (load { environment := spoken, store := listedLanguages }).result =
        .ok { extensions := [], names := ["type"] } ∧
      (load { environment := spoken, store := listedLanguages.put .project .absent }).result =
        .ok { extensions := [("pyi", "python")], names := ["type"] } ∧
      (load { environment := spoken, store := textualNames }).notices = [.namesIgnored .text] ∧
      (load { environment := spoken, store := textualNames }).result =
        .ok { extensions := [("pyi", "python")], names := Highlight.defaultNames } ∧
      (load { environment := spoken,
              store := textualNames.put .user (.text "highlight: \x7b\x7d\n") }).result =
        .ok { extensions := [("pyi", "python")], names := ["type"] } := by
  decide +kernel

end Settings
end Polyglot
