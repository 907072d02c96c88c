/-
The name, as a text, that a capture is mapped to.

A place in a list of names changes with every name that is added, moved or repeated.  The text at
that place does not: names that match one capture and have as many parts are one text
(`Begins.unique`), so the text is settled by the set of the recognised names (`IsTop`).  What
follows for whole configurations is `configure_by_names`: lists with the same names map every
capture alike, and a name that is added takes over captures that it matches and leaves all others
where they were.
-/
import Polyglot.Proofs.Highlight

namespace Polyglot

namespace Highlight

/-- The name that an entry of a configuration stands for. -/
def nameAt (names : List String) (entry : Option Nat) : Option String := entry.bind (names[·]?)

/-- The names that the captures of a configuration are mapped to. -/
def mappedNames (h : Highlight) (names : List String) : List (Option String) :=
  h.indices.map (nameAt names)

/-- The name that a capture is mapped to. -/
def nameFor (names : List String) (capture : String) : Option String :=
  nameAt names (indexOf names capture)

/-- The name is recognised and matches the capture, and no name that matches has more parts.
Nothing is said of its place, so this depends on the set of the names alone. -/
structure IsTop (names : List String) (capture name : String) : Prop where
  mem : name ∈ names
  begins : Begins name capture
  most : ∀ other ∈ names, Begins other capture → partCount other ≤ partCount name

/-! ## One text for each number of parts -/

/-- Splitting at dots is injective, and the parts of a capture have one beginning of each length. -/
theorem Begins.unique {capture a b : String} (ha : Begins a capture) (hb : Begins b capture)
    (hcount : partCount a = partCount b) : a = b := by
  have hpa : parts a <+: parts capture :=
    List.isPrefixOf_iff_prefix.mp (isPrefixOf_parts_iff.mpr ha)
  have hpb : parts b <+: parts capture :=
    List.isPrefixOf_iff_prefix.mp (isPrefixOf_parts_iff.mpr hb)
  have hlength : (parts a).length = (parts b).length := by
    rw [length_parts, length_parts, hcount]
  have hprefix : parts a <+: parts b :=
    List.prefix_of_prefix_length_le hpa hpb (Nat.le_of_eq hlength)
  have hparts : parts a = parts b := hprefix.eq_of_length hlength
  apply Text.fields_injective '.'
  show (parts a).map String.ofList = (parts b).map String.ofList
  rw [hparts]

theorem IsTop.unique {names : List String} {capture a b : String} (ha : IsTop names capture a)
    (hb : IsTop names capture b) : a = b := by
  have hle := ha.most b hb.mem hb.begins
  have hge := hb.most a ha.mem ha.begins
  exact ha.begins.unique hb.begins (by omega)

/-! ## The text of a mapping -/

theorem nameFor_eq_none_iff {names : List String} {capture : String} :
    nameFor names capture = none ↔ ∀ name ∈ names, ¬Begins name capture := by
  obtain ⟨hbest, hnone⟩ := indexOf_spec names capture
  rw [nameFor]
  cases hindex : indexOf names capture with
  | none =>
      have hno := hnone.mp hindex
      refine iff_of_true rfl ?_
      intro name hname hbegins
      exact hno ⟨name, hname, hbegins⟩
  | some j =>
      obtain ⟨name, hat, hbegins, -⟩ := (hbest j).mp hindex
      refine iff_of_false ?_ ?_
      · simp [nameAt, hat]
      · intro hno
        exact hno name (List.mem_of_getElem? hat) hbegins

theorem nameFor_eq_some_iff {names : List String} {capture name : String} :
    nameFor names capture = some name ↔ IsTop names capture name := by
  obtain ⟨hbest, hnone⟩ := indexOf_spec names capture
  rw [nameFor]
  cases hindex : indexOf names capture with
  | none =>
      refine iff_of_false (by simp [nameAt]) ?_
      intro htop
      exact hnone.mp hindex ⟨name, htop.mem, htop.begins⟩
  | some j =>
      obtain ⟨best, hat, hbegins, hmost, -⟩ := (hbest j).mp hindex
      have htop : IsTop names capture best := ⟨List.mem_of_getElem? hat, hbegins, hmost⟩
      have hname : nameAt names (some j) = some best := hat
      rw [hname, Option.some.injEq]
      constructor
      · intro heq
        exact heq ▸ htop
      · intro h
        exact htop.unique h

/-- Of a capture's entry only a missing one stands for no name. -/
theorem nameFor_eq_none_iff_indexOf {names : List String} {capture : String} :
    nameFor names capture = none ↔ indexOf names capture = none := by
  rw [nameFor_eq_none_iff, (indexOf_spec names capture).2]
  simp

/-- The order of the names and their repetitions do not count. -/
theorem nameFor_congr {names names' : List String} (hsame : ∀ n, n ∈ names ↔ n ∈ names')
    (capture : String) : nameFor names capture = nameFor names' capture := by
  apply Option.ext
  intro name
  rw [nameFor_eq_some_iff, nameFor_eq_some_iff]
  constructor
  · intro h
    refine ⟨(hsame name).mp h.mem, h.begins, ?_⟩
    intro other hother
    exact h.most other ((hsame other).mpr hother)
  · intro h
    refine ⟨(hsame name).mpr h.mem, h.begins, ?_⟩
    intro other hother
    exact h.most other ((hsame other).mp hother)

/-! ## One more name -/

section Added

variable {before after : List String} {added capture : String}

theorem mem_added_iff {name : String} :
    name ∈ before ++ added :: after ↔ name = added ∨ name ∈ before ++ after := by
  simp only [List.mem_append, List.mem_cons]
  exact or_left_comm

/-- A name that has more parts than all that match, and matches, is on top. -/
theorem isTop_added (hbegins : Begins added capture)
    (hmore : ∀ name, nameFor (before ++ after) capture = some name →
      partCount name < partCount added) :
    IsTop (before ++ added :: after) capture added := by
  refine ⟨mem_added_iff.mpr (.inl rfl), hbegins, ?_⟩
  intro other hother hb
  rcases mem_added_iff.mp hother with rfl | hold
  · exact Nat.le_refl _
  · cases hname : nameFor (before ++ after) capture with
    | none => exact absurd hb (nameFor_eq_none_iff.mp hname other hold)
    | some name =>
        have hle := (nameFor_eq_some_iff.mp hname).most other hold hb
        have hlt := hmore name hname
        omega

/-- What is on top with one more name is that name, or was on top without it. -/
theorem IsTop.eq_added_or {name : String} (h : IsTop (before ++ added :: after) capture name) :
    name = added ∨ IsTop (before ++ after) capture name := by
  rcases mem_added_iff.mp h.mem with heq | hold
  · exact .inl heq
  · refine .inr ⟨hold, h.begins, ?_⟩
    intro other hother
    exact h.most other (mem_added_iff.mpr (.inr hother))

/-- With one more name a capture keeps its name, or goes to the new one, which then matches it. -/
theorem nameFor_insert (before after : List String) (added capture : String) :
    nameFor (before ++ added :: after) capture = nameFor (before ++ after) capture ∨
      Begins added capture ∧ nameFor (before ++ added :: after) capture = some added := by
  cases hnew : nameFor (before ++ added :: after) capture with
  | none =>
      -- No name matches, and there were fewer before.
      rw [nameFor_eq_none_iff] at hnew
      refine .inl (nameFor_eq_none_iff.mpr ?_).symm
      intro name hname
      exact hnew name (mem_added_iff.mpr (.inr hname))
  | some name =>
      have htop := nameFor_eq_some_iff.mp hnew
      rcases htop.eq_added_or with rfl | hold
      · exact .inr ⟨htop.begins, rfl⟩
      · exact .inl (nameFor_eq_some_iff.mpr hold).symm

end Added

/-! ## Configurations -/

theorem mappedNames_configure (h : Highlight) (names : List String) :
    (h.configure names).mappedNames names = h.captures.map (nameFor names) := by
  rw [mappedNames, configure, List.map_map]
  rfl

/-- What the captures of a configuration are mapped to, read as texts.  Every entry that is not
missing stands for a name.  Two lists that hold the same names, in whatever order and however often,
map every capture to the same name, or both to none.  And if a name is added anywhere in a list,
each capture keeps its name unless it is the new name or goes on after it with a dot; then it may go
to the new name, and does so if that has more parts. -/
theorem configure_by_names (h : Highlight) :
    (∀ names, ∀ entry ∈ (h.configure names).indices,
      nameAt names entry = none ↔ entry = none) ∧
    (∀ names names', (∀ name, name ∈ names ↔ name ∈ names') →
      (h.configure names).mappedNames names = (h.configure names').mappedNames names') ∧
    ∀ before after added, List.Forall₂
      (fun (old : String × Option String) new =>
        (new = old.2 ∨ Begins added old.1 ∧ new = some added) ∧
          (Begins added old.1 → (∀ name, old.2 = some name → partCount name < partCount added) →
            new = some added))
      (h.captures.zip ((h.configure (before ++ after)).mappedNames (before ++ after)))
      ((h.configure (before ++ added :: after)).mappedNames (before ++ added :: after)) := by
  refine ⟨?_, ?_, ?_⟩
  · intro names entry hentry
    obtain ⟨capture, -, rfl⟩ := List.mem_map.mp hentry
    exact nameFor_eq_none_iff_indexOf
  · intro names names' hsame
    rw [mappedNames_configure, mappedNames_configure]
    apply List.map_congr_left
    intro capture _
    exact nameFor_congr hsame capture
  · intro before after added
    rw [mappedNames_configure, mappedNames_configure, ← List.map_prod_left_eq_zip,
      List.forall₂_map_left_iff, List.forall₂_map_right_iff, List.forall₂_same]
    intro capture _
    refine ⟨nameFor_insert before after added capture, ?_⟩
    intro hbegins hmore
    exact nameFor_eq_some_iff.mpr (isTop_added hbegins hmore)

/-- Neither the order of the names nor a repetition moves a capture, and a name that is put in front
takes only what goes on after it with a dot. -/
theorem configure_by_names_reordered :
    let h : Highlight := { source := "", captures := ["a.b.c", "a.bc", "x"], indices := [] }
    (∀ name, name ∈ ["a", "a.b"] ↔ name ∈ ["a.b", "a", "a.b"]) ∧
      (h.configure ["a", "a.b"]).mappedNames ["a", "a.b"] =
        (h.configure ["a.b", "a", "a.b"]).mappedNames ["a.b", "a", "a.b"] ∧
      (h.configure ["a"]).mappedNames ["a"] = [some "a", some "a", none] ∧
      (h.configure ["a.b", "a"]).mappedNames ["a.b", "a"] = [some "a.b", some "a", none] := by
  intro h
  have hsame : ∀ name, name ∈ ["a", "a.b"] ↔ name ∈ ["a.b", "a", "a.b"] := by
    intro name
    simp only [List.mem_cons, List.not_mem_nil, or_false]
    tauto
  exact ⟨hsame, (configure_by_names h).2.1 _ _ hsame, by decide +kernel, by decide +kernel⟩

end Highlight
end Polyglot
