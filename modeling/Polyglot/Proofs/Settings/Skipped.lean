/-
What becomes of configuration files that cannot be read.

There are three kinds of files.  Some break the load: it is not even known whether they exist, their
bytes are no text, or their text cannot be read although it is not malformed.  Some are passed over
with a notice: directories, files that may not be read, malformed texts and documents that are no
tables.  The others give data.  A file that is passed over leaves everything else as if there were
none.
-/
import Polyglot.Proofs.Settings.Places
import Polyglot.Proofs.Yaml.Faults
import Polyglot.Proofs.Yaml.Ordinary

namespace Polyglot

namespace Notice

/-- A notice says that the file of a layer is passed over. -/
def skips (layer : Layer) : Notice → Bool
  | .fileSkipped l => l = layer
  | .fileNotMapping l => l = layer
  | _ => false

end Notice

namespace File

/-- A file keeps the configuration from being loaded: its directory does not tell whether it exists,
its bytes are no text, or its text cannot be read and yet is not malformed. -/
inductive Breaks : File → Fault → Prop where
  | hidden : Breaks .hidden (.file .forbidden)
  | undecodable : Breaks .undecodable (.file .undecodable)
  | text {s : String} {f : Yaml.Fault} (hread : Yaml.read s = .error f) (hf : f ≠ .malformed) :
      Breaks (.text s) (.document f)

/-- A file is passed over with a notice: it is a directory, it may not be read, or its text is
malformed or not a table. -/
inductive PassedOver : File → (Layer → Notice) → Prop where
  | directory : PassedOver .directory .fileSkipped
  | unread : PassedOver .sealed .fileSkipped
  | malformed {s : String} (hread : Yaml.read s = .error .malformed) :
      PassedOver (.text s) .fileSkipped
  | notTable {s : String} {v : Value} (hread : Yaml.read s = .ok v)
      (htable : ∀ entries, v ≠ .map entries) (hvoid : v.isVoid = false) :
      PassedOver (.text s) .fileNotMapping

/-- A file gives data to its layer: none, if there is no file or it is void. -/
inductive Gives : File → Section → Prop where
  | absent : Gives .absent []
  | blocked : Gives .blocked []
  | sink : Gives .sink []
  | table {s : String} {entries : Section} (hread : Yaml.read s = .ok (.map entries)) :
      Gives (.text s) entries
  | void {s : String} {v : Value} (hread : Yaml.read s = .ok v)
      (htable : ∀ entries, v ≠ .map entries) (hvoid : v.isVoid = true) : Gives (.text s) []

variable {f : File} {notice : Layer → Notice}

/-- There is no other kind of file. -/
theorem breaks_or_passedOver_or_gives (f : File) :
    (∃ fault, f.Breaks fault) ∨ (∃ notice, f.PassedOver notice) ∨ ∃ data, f.Gives data := by
  cases f with
  | absent => exact .inr (.inr ⟨[], .absent⟩)
  | blocked => exact .inr (.inr ⟨[], .blocked⟩)
  | sink => exact .inr (.inr ⟨[], .sink⟩)
  | directory => exact .inr (.inl ⟨_, .directory⟩)
  | «sealed» => exact .inr (.inl ⟨_, .unread⟩)
  | hidden => exact .inl ⟨_, .hidden⟩
  | undecodable => exact .inl ⟨_, .undecodable⟩
  | text s =>
      cases hread : Yaml.read s with
      | error fault =>
          by_cases hfault : fault = .malformed
          · exact .inr (.inl ⟨_, .malformed (hfault ▸ hread)⟩)
          · exact .inl ⟨_, .text hread hfault⟩
      | ok v =>
          by_cases htable : ∃ entries, v = .map entries
          · obtain ⟨entries, rfl⟩ := htable
            exact .inr (.inr ⟨entries, .table hread⟩)
          · have hother : ∀ entries, v ≠ .map entries := fun entries h => htable ⟨entries, h⟩
            cases hvoid : v.isVoid with
            | true => exact .inr (.inr ⟨[], .void hread hother hvoid⟩)
            | false => exact .inr (.inl ⟨_, .notTable hread hother hvoid⟩)

theorem data_of_breaks {fault : Fault} (h : f.Breaks fault) (layer : Layer) :
    f.data layer = .error fault := by
  cases h with
  | hidden | undecodable => rfl
  | @text s f hread hf =>
      rw [data, hread]
      cases f with
      | malformed => exact absurd rfl hf
      | _ => rfl

theorem data_of_notTable {s : String} {v : Value} (hread : Yaml.read s = .ok v)
    (htable : ∀ entries, v ≠ .map entries) (layer : Layer) :
    (File.text s).data layer = .ok ([], if v.isVoid then [] else [.fileNotMapping layer]) := by
  rw [data, hread]
  cases v with
  | map entries => exact absurd rfl (htable entries)
  | scalar | list | set | pair | again => simp only; split <;> rfl

theorem data_of_passedOver (h : f.PassedOver notice) (layer : Layer) :
    f.data layer = .ok ([], [notice layer]) := by
  cases h with
  | directory | unread => rfl
  | malformed hread => rw [data, hread]
  | notTable hread htable hvoid => rw [data_of_notTable hread htable, hvoid]; rfl

theorem data_of_gives {data : Section} (h : f.Gives data) (layer : Layer) :
    f.data layer = .ok (data, []) := by
  cases h with
  | absent | blocked | sink => rfl
  | table hread => rw [File.data, hread]
  | void hread htable hvoid => rw [data_of_notTable hread htable, hvoid]; rfl

/-- Why bytes break: they are no text, or the text is flawed. -/
theorem Breaks.reason {bytes : ByteArray} {fault : Fault} (h : (ofBytes bytes).Breaks fault) :
    (¬ bytes.IsValidUTF8 ∧ fault = .file .undecodable) ∨
      ∃ s f, String.fromUTF8? bytes = some s ∧ fault = .document f ∧ Yaml.Flawed s f := by
  rw [ofBytes] at h
  cases hdecode : String.fromUTF8? bytes with
  | none =>
      rw [hdecode] at h
      have hinvalid : ¬ bytes.IsValidUTF8 := by
        intro hvalid
        rw [String.fromUTF8?, dif_pos hvalid] at hdecode
        cases hdecode
      cases h
      exact .inl ⟨hinvalid, rfl⟩
  | some s =>
      rw [hdecode] at h
      cases h with
      | text hread hf => exact .inr ⟨s, _, rfl, rfl, (Yaml.fault_read hread).resolve_left hf⟩

/-- What is said about a file of its own. -/
def noticesOf (layer : Layer) (f : File) : List Notice :=
  match f.data layer with
  | .ok (_, notices) => notices
  | .error _ => []

theorem noticesOf_of_passedOver (h : f.PassedOver notice) (layer : Layer) :
    f.noticesOf layer = [notice layer] := by
  rw [noticesOf, data_of_passedOver h]

theorem noticesOf_of_gives {data : Section} (h : f.Gives data) (layer : Layer) :
    f.noticesOf layer = [] := by
  rw [noticesOf, data_of_gives h]

/-- What is said about a file says that it is passed over. -/
theorem skips_of_mem_noticesOf {own : Layer} {n : Notice} (h : n ∈ f.noticesOf own)
    (layer : Layer) : n.skips layer = decide (own = layer) := by
  obtain ⟨fault, hf⟩ | ⟨notice, hf⟩ | ⟨data, hf⟩ := f.breaks_or_passedOver_or_gives
  · rw [noticesOf, data_of_breaks hf] at h
    cases h
  · rw [noticesOf_of_passedOver hf, List.mem_singleton] at h
    subst h
    cases hf <;> rfl
  · rw [noticesOf_of_gives hf] at h
    cases h

theorem data_of_not_breaks (h : ∀ fault, ¬ f.Breaks fault) (layer : Layer) :
    f.data layer = .ok (f.dataOf layer, f.noticesOf layer) := by
  obtain ⟨fault, hf⟩ | ⟨notice, hf⟩ | ⟨data, hf⟩ := f.breaks_or_passedOver_or_gives
  · exact absurd hf (h fault)
  · rw [dataOf, noticesOf, data_of_passedOver hf]
  · rw [dataOf, noticesOf, data_of_gives hf]

theorem dataOf_of_gives {data : Section} (h : f.Gives data) (layer : Layer) :
    f.dataOf layer = data := by
  rw [dataOf, data_of_gives h]

theorem not_breaks_of_gives {data : Section} (h : f.Gives data) (fault : Fault) :
    ¬ f.Breaks fault := by
  intro hbreaks
  have hdata := data_of_breaks hbreaks .user
  rw [data_of_gives h] at hdata
  cases hdata

end File

namespace Config

theorem skips_notice (place : Place) (kind : Kind) (layer : Layer) :
    (place.notice kind).skips layer = false := by
  cases place with
  | whole side => rfl
  | setting side => cases side <;> rfl

end Config

namespace Store

variable {store : Store} {environment : Environment} {layer : Layer}

/-- What the project's file says over the layers below it. -/
def layered (store : Store) (environment : Environment) : Section :=
  Value.merge ({ environment, store } : Settings).below (store.project.dataOf .project)

/-- No file breaks. -/
def Sound (store : Store) : Prop := ∀ layer fault, ¬ (store.file layer).Breaks fault

theorem load_of_sound (h : store.Sound) :
    store.load environment =
      { result := .ok (Config.ofSection (store.layered environment)).1, state := (),
        notices := store.user.noticesOf .user ++ store.project.noticesOf .project ++
          (Config.ofSection (store.layered environment)).2 } := by
  have hu : store.user.data .user = _ := File.data_of_not_breaks (h .user) .user
  have hp : store.project.data .project = _ := File.data_of_not_breaks (h .project) .project
  rw [load, hu, hp]
  rfl

/-- The fault that loading ends with: that of the user's file, or else that of the project's. -/
def Fails (store : Store) (fault : Fault) : Prop :=
  store.user.Breaks fault ∨ (∀ f, ¬ store.user.Breaks f) ∧ store.project.Breaks fault

theorem result_load_of_fails {fault : Fault} (h : store.Fails fault) :
    (store.load environment).result = .error fault := by
  obtain hu | ⟨hu, hp⟩ := h
  · rw [load, File.data_of_breaks hu]
  · rw [load, File.data_of_not_breaks hu, File.data_of_breaks hp]

theorem sound_or_fails (store : Store) : store.Sound ∨ ∃ fault, store.Fails fault := by
  by_cases hu : ∃ fault, store.user.Breaks fault
  · obtain ⟨fault, hu⟩ := hu
    exact .inr ⟨fault, .inl hu⟩
  · have hu : ∀ fault, ¬ store.user.Breaks fault := fun fault h => hu ⟨fault, h⟩
    by_cases hp : ∃ fault, store.project.Breaks fault
    · obtain ⟨fault, hp⟩ := hp
      exact .inr ⟨fault, .inr ⟨hu, hp⟩⟩
    · refine .inl fun layer fault => ?_
      cases layer with
      | project => exact fun h => hp ⟨fault, h⟩
      | user => exact hu fault

theorem result_load_eq_ok_iff {config : Config} :
    (store.load environment).result = .ok config ↔
      store.Sound ∧ (Config.ofSection (store.layered environment)).1 = config := by
  obtain hsound | ⟨fault, hfails⟩ := store.sound_or_fails
  · rw [load_of_sound hsound, Except.ok.injEq, and_iff_right hsound]
  · rw [result_load_of_fails hfails]
    refine iff_of_false nofun fun h => ?_
    have hok : (store.load environment).result = .error fault := result_load_of_fails hfails
    rw [load_of_sound h.1] at hok
    cases hok

theorem Sound.put (h : store.Sound) {file : File} (hfile : ∀ fault, ¬ file.Breaks fault)
    (layer : Layer) : (store.put layer file).Sound := by
  intro l fault
  cases layer with
  | project =>
      cases l with
      | project => exact hfile fault
      | user => exact h .user fault
  | user =>
      cases l with
      | project => exact h .project fault
      | user => exact hfile fault

end Store

namespace Settings

theorem load_new (environment : Environment) (store : Store) :
    (load { environment, store }).result = (store.load environment).result ∧
      (load { environment, store }).notices = (store.load environment).notices := by
  rw [load_of_new rfl]
  cases h : (store.load environment).result with
  | error fault => exact ⟨rfl, rfl⟩
  | ok config => exact ⟨rfl, rfl⟩

namespace Sample

end Sample

end Settings
end Polyglot
