/-
What packages give to a row, and what they raise.

Before anything is taken from the module of a row, the module is imported (`Row.Imports`).  What
stands under a name in it, and what is read from its files, is then a matter of its tables.  The
functions that load are described by these tables (`Row.OffersGrammar`, `Row.OffersFile`), and a
handler by what it makes of an exception (`Row.guarded_eq_error_iff`).
-/
import Mathlib.Data.List.Forall2
import Polyglot.Proofs.Action
import Polyglot.Registry.Load

namespace Polyglot

open Table (find?)

section Bind

variable {ε α β : Type} {x : Except ε α} {f : α → Except ε β}

theorem bind_eq_ok_iff {b : β} : (x >>= f) = .ok b ↔ ∃ a, x = .ok a ∧ f a = .ok b := by
  cases x with
  | error e => simp [bind, Except.bind]
  | ok a => simp [bind, Except.bind]

theorem bind_eq_error_iff {e : ε} :
    (x >>= f) = .error e ↔ x = .error e ∨ ∃ a, x = .ok a ∧ f a = .error e := by
  cases x with
  | error e => simp [bind, Except.bind]
  | ok a => simp [bind, Except.bind]

end Bind

theorem Raised.Group.mem_all (group : Raised.Group) : group ∈ Raised.Group.all := by
  cases group <;> decide

theorem Attribute.call_eq_ok_iff {a : Attribute} {g : Grammar} :
    a.call = .ok g ↔ a = .function (.ok g) := by
  cases a <;> simp [call]

theorem Attribute.call_eq_error_iff {a : Attribute} {e : Raised} :
    a.call = .error e ↔ (a = .value ∧ .badType = e) ∨ a = .function (.error e) := by
  cases a <;> simp [call]

namespace Package

variable {p : Package} {e : Raised}

theorem lookup_eq_ok_iff {name : String} {a : Attribute} :
    p.lookup name = .ok a ↔ find? p.attributes name = some (.ok a) := by
  rw [lookup]
  cases find? p.attributes name <;> simp

theorem lookup_eq_error_iff {name : String} :
    p.lookup name = .error e ↔
      (find? p.attributes name = none ∧ .noAttribute = e) ∨
        find? p.attributes name = some (.error e) := by
  rw [lookup]
  cases find? p.attributes name <;> simp

/-- A file that can be asked for: the package holds files, and the name is one that files have. -/
def MayHold (p : Package) (file : String) : Prop :=
  p.holdsFiles = true ∧ '\x00' ∉ file.toList

theorem read_of_mayHold {file : String} (h : p.MayHold file) :
    p.read file = (find? p.files file).getD (.error .noFile) := by
  obtain ⟨hholds, hname⟩ := h
  simp [read, hholds, hname]

theorem read_eq_ok_iff {file text : String} :
    p.read file = .ok text ↔ p.MayHold file ∧ find? p.files file = some (.ok text) := by
  by_cases h : p.MayHold file
  · rw [read_of_mayHold h, and_iff_right h]
    cases find? p.files file <;> simp
  · refine iff_of_false (fun hread => h ?_) fun hread => h hread.1
    rw [read] at hread
    split at hread
    · cases hread
    · rename_i hholds
      split at hread
      · cases hread
      · rename_i hname
        exact ⟨by simpa using hholds, by simpa using hname⟩

theorem read_eq_error_iff {file : String} :
    p.read file = .error e ↔
      (p.holdsFiles = false ∧ .badType = e) ∨
        (p.holdsFiles = true ∧ '\x00' ∈ file.toList ∧ .badValue = e) ∨
          (p.MayHold file ∧ find? p.files file = none ∧ .noFile = e) ∨
            (p.MayHold file ∧ find? p.files file = some (.error e)) := by
  rw [read, MayHold]
  cases hholds : p.holdsFiles with
  | false => simp
  | true =>
      by_cases hname : '\x00' ∈ file.toList
      · simp [hname]
      · cases find? p.files file <;> simp [hname]

end Package

namespace Row

variable {packages : Packages} {row : Row}

/-! ## Imports -/

/-- The module that a row names can be imported, and is this package. -/
structure Imports (packages : Packages) (row : Row) (package : Package) : Prop where
  named : row.nameFault? = none
  found : find? packages row.grammarModule = some package
  sound : package.importFault = none

/-- Why the module that a row names cannot be imported. -/
inductive ImportRaises (packages : Packages) (row : Row) : Raised → Prop where
  | name {e : Raised} (h : row.nameFault? = some e) : ImportRaises packages row e
  | missing (named : row.nameFault? = none) (h : find? packages row.grammarModule = none) :
      ImportRaises packages row .noModule
  | code {package : Package} {e : Raised} (named : row.nameFault? = none)
      (found : find? packages row.grammarModule = some package)
      (h : package.importFault = some e) : ImportRaises packages row e

theorem package_eq_ok_iff {p : Package} : row.package packages = .ok p ↔ row.Imports packages p := by
  constructor
  · intro h
    rw [package] at h
    split at h
    · cases h
    · rename_i hnamed
      split at h
      · cases h
      · rename_i p' hfound
        split at h
        · cases h
        · rename_i hsound
          obtain rfl := Except.ok.inj h
          exact ⟨hnamed, hfound, hsound⟩
  · rintro ⟨hnamed, hfound, hsound⟩
    simp only [package, hnamed, hfound, hsound]

theorem package_eq_error_iff {e : Raised} :
    row.package packages = .error e ↔ row.ImportRaises packages e := by
  constructor
  · intro h
    rw [package] at h
    split at h
    · rename_i hname
      exact Except.error.inj h ▸ .name hname
    · rename_i hnamed
      split at h
      · rename_i hmissing
        exact Except.error.inj h ▸ .missing hnamed hmissing
      · rename_i p hfound
        split at h
        · rename_i hcode
          exact Except.error.inj h ▸ .code hnamed hfound hcode
        · cases h
  · rintro (hname | ⟨hnamed, hmissing⟩ | ⟨hnamed, hfound, hcode⟩)
    · simp only [package, hname]
    · simp only [package, hnamed, hmissing]
    · simp only [package, hnamed, hfound, hcode]

/-! ## Handlers -/

section Guarded

variable {α : Type} {l : Language} {groups : List Raised.Group} {problem : Raised → Grammar.Problem}
  {x : Except Raised α}

theorem guarded_eq_ok_iff {a : α} : guarded l groups problem x = .ok a ↔ x = .ok a := by
  cases x <;> simp [guarded, Except.mapError]

theorem guarded_eq_error_iff {fault : Fault} :
    guarded l groups problem x = .error fault ↔ ∃ e, x = .error e ∧
      fault = if e.group ∈ groups then .grammar { language := l, problem := problem e }
        else .raised e := by
  cases x <;> simp [guarded, Except.mapError, eq_comm]

/-- A handler for all exceptions lets none pass. -/
theorem guarded_all : guarded l Raised.Group.all problem x =
    x.mapError fun e => .grammar { language := l, problem := problem e } := by
  cases x <;> simp [guarded, Except.mapError, Raised.Group.mem_all]

end Guarded

/-! ## Grammars and files that are there -/

/-- The packages hold the grammar that a row names, and it is not refused. -/
def OffersGrammar (packages : Packages) (row : Row) (g : Grammar) : Prop :=
  ∃ package, row.Imports packages package ∧
    find? package.attributes row.grammarFunction = some (.ok (.function (.ok g)))

/-- The packages hold a query file of a row, with this text. -/
def OffersFile (packages : Packages) (row : Row) (file text : String) : Prop :=
  ∃ package, row.Imports packages package ∧ package.MayHold file ∧
    find? package.files file = some (.ok text)

/-- The packages hold files of a row; the text is that of the files, in their order and on lines of
their own. -/
def OffersText (packages : Packages) (row : Row) (files : List String) (text : String) : Prop :=
  ∃ texts, List.Forall₂ (row.OffersFile packages) files texts ∧ text = "\n".intercalate texts

theorem loadGrammar_eq_ok_iff {g : Grammar} :
    row.loadGrammar packages = .ok g ↔ row.OffersGrammar packages g := by
  simp only [loadGrammar, bind_eq_ok_iff, guarded_eq_ok_iff, package_eq_ok_iff,
    Package.lookup_eq_ok_iff, Attribute.call_eq_ok_iff]
  constructor
  · rintro ⟨held, ⟨p, himports, hfound⟩, rfl⟩
    exact ⟨p, himports, hfound⟩
  · rintro ⟨p, himports, hfound⟩
    exact ⟨_, ⟨p, himports, hfound⟩, rfl⟩

theorem readQuery_eq_ok_iff {file text : String} :
    row.readQuery packages file = .ok text ↔ row.OffersFile packages file text := by
  simp only [readQuery, bind_eq_ok_iff, guarded_eq_ok_iff, package_eq_ok_iff,
    Package.read_eq_ok_iff, OffersFile]

theorem mapM_readQuery_eq_ok_iff {files texts : List String} :
    files.mapM (row.readQuery packages) = .ok texts ↔
      List.Forall₂ (row.OffersFile packages) files texts := by
  induction files generalizing texts with
  | nil =>
      rw [List.mapM_nil, List.forall₂_nil_left_iff]
      exact Except.ok.injEq [] texts ▸ eq_comm
  | cons file rest ih =>
      rw [List.mapM_cons, List.forall₂_cons_left_iff]
      simp only [bind_eq_ok_iff, readQuery_eq_ok_iff, ih]
      constructor
      · rintro ⟨text, hfile, others, hrest, h⟩
        exact ⟨text, others, hfile, hrest, (Except.ok.inj h).symm⟩
      · rintro ⟨text, others, hfile, hrest, rfl⟩
        exact ⟨text, hfile, others, hrest, rfl⟩

theorem readQueries_eq_ok_iff {files : List String} {text : String} :
    row.readQueries packages files = .ok text ↔ row.OffersText packages files text := by
  rw [readQueries, OffersText]
  simp only [← mapM_readQuery_eq_ok_iff]
  cases files.mapM (row.readQuery packages) with
  | error fault => simp [Except.map]
  | ok texts => simp [Except.map, eq_comm]

/-! ## Files one after the other -/

section Files

variable (packages : Packages) (row : Row)

/-- What is wrong with the first file that cannot be read. -/
def firstFault? (files : List String) : Option Fault :=
  files.findSome? fun file => faultOf (row.readQuery packages file)

/-- The text of a file that can be read. -/
def textOf (file : String) : String := (row.readQuery packages file).toOption.getD ""

/-- The texts of files in their order, each on lines of its own. -/
def joined (files : List String) : String := "\n".intercalate (files.map (row.textOf packages))

theorem firstFault?_cons (file : String) (rest : List String) :
    row.firstFault? packages (file :: rest) =
      match row.readQuery packages file with
      | .error fault => some fault
      | .ok _ => row.firstFault? packages rest := by
  rw [firstFault?, List.findSome?_cons]
  cases row.readQuery packages file <;> rfl

theorem mapM_readQuery (files : List String) :
    files.mapM (row.readQuery packages) =
      match row.firstFault? packages files with
      | some fault => .error fault
      | none => .ok (files.map (row.textOf packages)) := by
  induction files with
  | nil => rfl
  | cons file rest ih =>
      rw [List.mapM_cons, ih, firstFault?_cons, List.map_cons, textOf]
      cases row.readQuery packages file with
      | error fault => rfl
      | ok text => cases row.firstFault? packages rest <;> rfl

theorem readQueries_eq (files : List String) :
    row.readQueries packages files =
      match row.firstFault? packages files with
      | some fault => .error fault
      | none => .ok (row.joined packages files) := by
  rw [readQueries, mapM_readQuery]
  cases row.firstFault? packages files <;> rfl

end Files

end Row
end Polyglot
