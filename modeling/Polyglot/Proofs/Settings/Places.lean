/-
Places in the data of a configuration at which something of a certain kind has to stand.

There are two sections, and each holds one setting.  A section has to be a table, and so have the
extensions; the highlight names have to be a list.  What stands at a place and is of another kind is
reported (`exists_of_mem_notices`) and leaves the setting at its default (`Place.agrees_default`).
-/
import Polyglot.Proofs.Settings.Durable

namespace Polyglot

open Table (find?)

namespace Config

/-! ## Places of the data -/

/-- The two sections; each holds one setting. -/
inductive Side where
  | languages
  | highlight
deriving DecidableEq, Repr

namespace Side

def name : Side → String
  | languages => "languages"
  | highlight => "highlight"

/-- The name of the setting inside its section. -/
def key : Side → String
  | languages => "extensions"
  | highlight => "names"

def other : Side → Side
  | languages => highlight
  | highlight => languages

/-- Two configurations agree in the setting of a side. -/
def Agrees (c c' : Config) : Side → Prop
  | languages => c.extensions = c'.extensions
  | highlight => c.names = c'.names

theorem Agrees.symm {side : Side} {c c' : Config} (h : side.Agrees c c') : side.Agrees c' c := by
  cases side with
  | languages => exact Eq.symm h
  | highlight => exact Eq.symm h

theorem Agrees.trans {side : Side} {c c' d : Config} (h : side.Agrees c c')
    (h' : side.Agrees c' d) : side.Agrees c d := by
  cases side with
  | languages => exact Eq.trans h h'
  | highlight => exact Eq.trans h h'

theorem eq_iff_agrees (side : Side) {c c' : Config} :
    c = c' ↔ side.Agrees c c' ∧ side.other.Agrees c c' := by
  have hfields : c = c' ↔ c.extensions = c'.extensions ∧ c.names = c'.names :=
    Iff.of_eq (Config.mk.injEq c.extensions c.names c'.extensions c'.names)
  cases side with
  | languages => exact hfields
  | highlight => exact hfields.trans and_comm

theorem name_other_ne (side : Side) : side.other.name ≠ side.name := by
  cases side <;> decide

theorem name_injective {side side' : Side} (h : side.name = side'.name) : side = side' := by
  cases side with
  | languages =>
      cases side' with
      | languages => rfl
      | highlight => exact absurd h (by decide)
  | highlight =>
      cases side' with
      | languages => exact absurd h (by decide)
      | highlight => rfl

end Side

/-- The places at which data has to be of a certain kind: a section as a whole, or the setting in
it. -/
inductive Place where
  | whole (side : Side)
  | setting (side : Side)
deriving DecidableEq, Repr

namespace Place

def side : Place → Side
  | whole side => side
  | setting side => side

/-- What data says at a place. -/
def entryAt (data : Section) : Place → Option Value
  | whole side => find? data (textKey side.name)
  | setting side => find? (tableAt data side.name) (textKey side.key)

/-- The data without what it says at a place. -/
def remove (data : Section) : Place → Section
  | whole side => Table.erase data (textKey side.name)
  | setting side =>
      match find? data (textKey side.name) with
      | some (.map entries) =>
          Table.insert data (textKey side.name) (.map (Table.erase entries (textKey side.key)))
      | _ => data

/-- A value of the kind that is wanted at a place, or one that counts as missing there. -/
def accepts : Place → Value → Bool
  | setting .highlight, .list _ => true
  | setting .highlight, .scalar .null => true
  | setting .highlight, _ => false
  | _, .map _ => true
  | _, v => v.isVoid

/-- How a value of another kind is reported. -/
def notice (kind : Kind) : Place → Notice
  | whole side => .sectionIgnored side.name kind
  | setting .languages => .extensionsIgnored kind
  | setting .highlight => .namesIgnored kind

theorem notice_injective {place place' : Place} {kind kind' : Kind}
    (h : place.notice kind = place'.notice kind') : place = place' := by
  cases place with
  | whole side =>
      cases place' with
      | whole side' => rw [Side.name_injective (Notice.sectionIgnored.inj h).1]
      | setting side' => cases side' <;> cases h
  | setting side =>
      cases place' with
      | whole side' => cases side <;> cases h
      | setting side' => cases side <;> cases side' <;> cases h <;> rfl

/-- A table that is merged into one below stays a table. -/
theorem accepts_override (place : Place) (old : Option Value) (v : Value) :
    place.accepts (v.override old) = place.accepts v := by
  cases v with
  | map entries =>
      have hmap : ∃ entries', (Value.map entries).override old = .map entries' := by
        cases old with
        | none => exact ⟨entries, rfl⟩
        | some w =>
            cases w with
            | map base => exact ⟨Value.merge base entries, rfl⟩
            | scalar | list | set | pair | again => exact ⟨entries, rfl⟩
      obtain ⟨entries', hmap⟩ := hmap
      rw [hmap]
      cases place with
      | whole side => rfl
      | setting side => cases side <;> rfl
  | scalar | list | set | pair | again => rfl

end Place

/-! ## What is reported -/

/-- A table that is asked for, and what is said if there is something else. -/
def tableOf (report : Kind → Notice) : Option Value → Section × List Notice
  | none => ([], [])
  | some (.map entries) => (entries, [])
  | some v => if v.isVoid then ([], []) else ([], [report v.kind])

section Reported

variable {data : Section} {n : Notice}

theorem mem_tableOf {place : Place} (hplace : place ≠ .setting .highlight) {entry : Option Value}
    (h : n ∈ (tableOf (fun kind => place.notice kind) entry).2) :
    ∃ v, entry = some v ∧ place.accepts v = false ∧ n = place.notice v.kind := by
  rw [tableOf.eq_def] at h
  split at h
  · cases h
  · cases h
  · rename_i v hmap
    by_cases hvoid : v.isVoid = true
    · rw [if_pos hvoid] at h
      cases h
    · rw [if_neg hvoid] at h
      have haccepts : place.accepts v = v.isVoid := by
        rw [Place.accepts.eq_def]
        split
        · exact absurd rfl hplace
        · exact absurd rfl hplace
        · exact absurd rfl hplace
        · exact absurd rfl (hmap _)
        · rfl
      exact ⟨v, rfl, haccepts.trans (Bool.eq_false_iff.mpr hvoid), List.mem_singleton.mp h⟩

theorem mem_namesOf (h : n ∈ (namesOf (tableAt data "highlight")).2) :
    ∃ v, (Place.setting .highlight).entryAt data = some v ∧
      (Place.setting .highlight).accepts v = false ∧
      n = (Place.setting .highlight).notice v.kind := by
  rw [namesOf.eq_def] at h
  split at h
  · cases h
  · cases h
  · cases h
  · cases h
  · rename_i v hnull hempty hlist hfind
    refine ⟨v, hfind, ?_, List.mem_singleton.mp h⟩
    rw [Place.accepts.eq_def]
    split
    · exact absurd rfl (hlist _)
    · exact absurd rfl hnull
    · rfl
    · rename_i hother
      exact absurd rfl hother
    · rename_i hother _ _
      exact absurd rfl hother

/-- Every notice about data is about what it says at a place, and that is not of the right kind. -/
theorem exists_of_mem_notices (h : n ∈ (ofSection data).2) :
    ∃ place v, Place.entryAt data place = some v ∧ place.accepts v = false ∧
      n = place.notice v.kind := by
  simp only [ofSection, List.mem_append] at h
  obtain ((hl | hh) | he) | hn := h
  · exact ⟨.whole .languages, mem_tableOf (by decide) hl⟩
  · exact ⟨.whole .highlight, mem_tableOf (by decide) hh⟩
  · rw [sectionOf_fst] at he
    exact ⟨.setting .languages, mem_tableOf (by decide) he⟩
  · rw [sectionOf_fst] at hn
    exact ⟨.setting .highlight, mem_namesOf hn⟩

theorem Place.entryAt_of_reported {place : Place} {kind : Kind}
    (h : place.notice kind ∈ (ofSection data).2) :
    ∃ v, place.entryAt data = some v ∧ place.accepts v = false := by
  obtain ⟨place', v, hentry, haccepts, hnotice⟩ := exists_of_mem_notices h
  rw [Place.notice_injective hnotice]
  exact ⟨v, hentry, haccepts⟩

end Reported

/-! ## Settings by their entries -/

section Entries

variable {data data' : Section} {side : Side}

/-- A setting is read off its entry alone. -/
theorem agrees_of_entryAt
    (h : (Place.setting side).entryAt data = (Place.setting side).entryAt data') :
    side.Agrees (ofSection data).1 (ofSection data').1 := by
  cases side with
  | languages =>
      have haliases : aliases data = aliases data' := by
        show tableAt (tableAt data "languages") "extensions" =
          tableAt (tableAt data' "languages") "extensions"
        rw [tableAt, show find? (tableAt data "languages") (textKey "extensions") =
          find? (tableAt data' "languages") (textKey "extensions") from h, ← tableAt]
      show (ofSection data).1.extensions = (ofSection data').1.extensions
      rw [extensions_ofSection, extensions_ofSection, haliases]
  | highlight =>
      have hnames : namesOf (tableAt data "highlight") = namesOf (tableAt data' "highlight") := by
        rw [namesOf, show find? (tableAt data "highlight") (textKey "names") =
          find? (tableAt data' "highlight") (textKey "names") from h, ← namesOf]
      show (ofSection data).1.names = (ofSection data').1.names
      rw [names_ofSection, names_ofSection, hnames]

theorem tableAt_of_ne_map {name : String} {v : Value} (hfind : find? data (textKey name) = some v)
    (hv : ∀ entries, v ≠ .map entries) : tableAt data name = [] := by
  refine tableAt_of_not_isTableAt ?_
  rw [isTableAt.eq_def, hfind]
  split
  · rename_i hnone
    cases hnone
  · rename_i entries hmap
    exact absurd (Option.some.inj hmap) (hv entries)
  · rfl

/-- An entry that is not accepted leaves the setting at its default. -/
theorem Place.agrees_default {place : Place} {v : Value} (hentry : place.entryAt data = some v)
    (haccepts : place.accepts v = false) : place.side.Agrees (ofSection data).1 {} := by
  cases place with
  | whole side =>
      have htable : tableAt data side.name = [] := by
        refine tableAt_of_ne_map hentry ?_
        rintro entries rfl
        cases haccepts
      have hempty : (Place.setting side).entryAt data = (Place.setting side).entryAt [] := by
        show find? (tableAt data side.name) _ = find? (tableAt [] side.name) _
        rw [htable]
        rfl
      exact agrees_of_entryAt hempty
  | setting side =>
      cases side with
      | languages =>
          have haliases : aliases data = [] := by
            refine tableAt_of_ne_map hentry ?_
            rintro entries rfl
            cases haccepts
          show (ofSection data).1.extensions = []
          rw [extensions_ofSection, haliases]
          rfl
      | highlight =>
          have hnames : (namesOf (tableAt data "highlight")).1 = none := by
            rw [namesOf.eq_def,
              show find? (tableAt data "highlight") (textKey "names") = some v from hentry]
            split
            · rfl
            · rfl
            · rfl
            · rename_i hfind
              cases hfind
              cases haccepts
            · rfl
          show (ofSection data).1.names = Highlight.defaultNames
          rw [names_ofSection, hnames]
          rfl

end Entries

end Config
end Polyglot
