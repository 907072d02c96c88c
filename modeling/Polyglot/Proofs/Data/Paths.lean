/-
Merged tables, path by path, and the laws of merging.

A path leads from key to key into tables inside tables.  What stands at a path of merged tables is
settled by what the two tables hold there: the upper one has its way with everything but a table,
and two tables that meet are merged in their place.  From what is found under a key follow the
equations: a table over itself changes nothing, nor does one that was written before, and layers may
be merged in either order as long as the second and third agree on what is a table.  They are
equations between lists of entries, so they hold with the order of the keys.
-/
import Polyglot.Proofs.Yaml.Keys

namespace Polyglot

open Table (find? keys contains Distinct)

namespace Value

def isTable : Value → Bool
  | map _ => true
  | _ => false

/-- What stands at a path inside a value. -/
def at? : Value → List Scalar → Option Value
  | v, [] => some v
  | map entries, k :: path => (find? entries k).bind fun inner => at? inner path
  | _, _ :: _ => none

/-- Something else than a table stands on the way to a path. -/
def Blocks (d : Section) (path : List Scalar) : Prop :=
  ∃ front rest v, path = front ++ rest ∧ rest ≠ [] ∧ at? (map d) front = some v ∧
    v.isTable = false

/-- At no path has one of the values a table and the other something else. -/
def Alike (v w : Value) : Prop :=
  ∀ path x y, v.at? path = some x → w.at? path = some y → x.isTable = y.isTable

theorem at?_map_cons (entries : Section) (k : Scalar) (path : List Scalar) :
    at? (map entries) (k :: path) = (find? entries k).bind fun inner => at? inner path := rfl

theorem at?_map_cons_of_find? {entries : Section} {k : Scalar} {v : Value}
    (h : find? entries k = some v) (path : List Scalar) :
    at? (map entries) (k :: path) = at? v path := by
  rw [at?_map_cons, h]
  rfl

theorem at?_cons_of_not_isTable {v : Value} (h : v.isTable = false) (k : Scalar)
    (path : List Scalar) : at? v (k :: path) = none := by
  cases v with
  | map entries => cases h
  | scalar | list | set | pair | again => rfl

theorem at?_append (v : Value) (front rest : List Scalar) :
    at? v (front ++ rest) = (at? v front).bind fun inner => at? inner rest := by
  induction front generalizing v with
  | nil => rfl
  | cons k front ih =>
      cases v with
      | map entries =>
          rw [List.cons_append, at?_map_cons, at?_map_cons]
          cases find? entries k with
          | none => rfl
          | some inner => exact ih inner
      | scalar | list | set | pair | again => rfl

theorem exists_eq_map_of_at? {v : Value} {path : List Scalar} {t : Section}
    (h : at? v path = some (map t)) : ∃ entries, v = map entries := by
  cases v with
  | map entries => exact ⟨entries, rfl⟩
  | scalar | list | set | pair | again => cases path <;> cases h

theorem WellKeyed.of_at? {v x : Value} (h : WellKeyed v) {path : List Scalar}
    (hat : at? v path = some x) : WellKeyed x := by
  induction path generalizing v with
  | nil =>
      cases hat
      exact h
  | cons k path ih =>
      cases v with
      | map entries =>
          cases hfind : find? entries k with
          | none =>
              rw [at?_map_cons, hfind] at hat
              cases hat
          | some inner =>
              rw [at?_map_cons_of_find? hfind] at hat
              exact ih (h.of_find? hfind) hat
      | scalar | list | set | pair | again => cases hat

/-- What overrides stays as it is, unless it is a table and meets one. -/
theorem override_cases (old : Option Value) (v : Value) :
    override old v = v ∨
      ∃ base entries, old = some (map base) ∧ v = map entries ∧
        override old v = map (merge base entries) := by
  cases v with
  | map entries =>
      cases old with
      | none => exact .inl rfl
      | some w =>
          cases w with
          | map base => exact .inr ⟨base, entries, rfl, rfl, rfl⟩
          | scalar | list | set | pair | again => exact .inl rfl
  | scalar | list | set | pair | again => exact .inl rfl

/-! ## Paths in merged tables -/

theorem at?_merge_of_find? (base : Section) {upper : Section} (h : Distinct upper) {k : Scalar}
    {v : Value} (hfind : find? upper k = some v) (path : List Scalar) :
    at? (map (merge base upper)) (k :: path) = at? (override (find? base k) v) path := by
  rw [at?_map_cons, find?_merge base h, hfind]
  rfl

theorem at?_merge_of_find?_none (base : Section) {upper : Section} (h : Distinct upper) {k : Scalar}
    (hfind : find? upper k = none) (path : List Scalar) :
    at? (map (merge base upper)) (k :: path) = at? (map base) (k :: path) := by
  rw [at?_map_cons, find?_merge base h, hfind]
  rfl

/-- Where two tables meet, their merged table stands. -/
theorem at?_merge_of_tables {base upper : Section} (hupper : WellKeyed (map upper))
    {path : List Scalar} {t u : Section} (hbase : at? (map base) path = some (map t))
    (hat : at? (map upper) path = some (map u)) :
    at? (map (merge base upper)) path = some (map (merge t u)) := by
  induction path generalizing base upper with
  | nil =>
      cases hbase
      cases hat
      rfl
  | cons k path ih =>
      cases hb : find? base k with
      | none =>
          rw [at?_map_cons, hb] at hbase
          cases hbase
      | some b =>
          cases hu : find? upper k with
          | none =>
              rw [at?_map_cons, hu] at hat
              cases hat
          | some v =>
              rw [at?_map_cons_of_find? hb] at hbase
              rw [at?_map_cons_of_find? hu] at hat
              obtain ⟨base', rfl⟩ := exists_eq_map_of_at? hbase
              obtain ⟨upper', rfl⟩ := exists_eq_map_of_at? hat
              rw [at?_merge_of_find? base hupper.distinct hu, hb]
              exact ih (hupper.of_find? hu) hbase hat

/-- The upper table has its way, unless it has a table where the base has one too. -/
theorem at?_merge_of_upper {base upper : Section} (hupper : WellKeyed (map upper))
    {path : List Scalar} {v : Value} (hat : at? (map upper) path = some v)
    (halone : v.isTable = false ∨ ∀ t, at? (map base) path ≠ some (map t)) :
    at? (map (merge base upper)) path = some v := by
  induction path generalizing base upper with
  | nil =>
      cases hat
      rcases halone with hleaf | hbase
      · cases hleaf
      · exact absurd rfl (hbase base)
  | cons k path ih =>
      cases hu : find? upper k with
      | none =>
          rw [at?_map_cons, hu] at hat
          cases hat
      | some w =>
          rw [at?_map_cons_of_find? hu] at hat
          rw [at?_merge_of_find? base hupper.distinct hu]
          rcases override_cases (find? base k) w with hsame | ⟨base', upper', hb, rfl, hmerged⟩
          · rw [hsame]
            exact hat
          · rw [hmerged]
            refine ih (hupper.of_find? hu) hat (halone.imp id ?_)
            intro hbase t
            rw [← at?_map_cons_of_find? hb]
            exact hbase t

/-- Behind something else than a table in the upper table there is nothing. -/
theorem at?_merge_of_blocks {base upper : Section} (hupper : WellKeyed (map upper))
    {path : List Scalar} (hblocks : Blocks upper path) :
    at? (map (merge base upper)) path = none := by
  obtain ⟨front, rest, v, rfl, hrest, hat, hleaf⟩ := hblocks
  rw [at?_append, at?_merge_of_upper hupper hat (.inl hleaf), Option.bind_some]
  cases rest with
  | nil => exact absurd rfl hrest
  | cons k rest => exact at?_cons_of_not_isTable hleaf k rest

theorem Blocks.cons {d inner : Section} {k : Scalar} {path : List Scalar}
    (hfind : find? d k = some (map inner)) (h : Blocks inner path) : Blocks d (k :: path) := by
  obtain ⟨front, rest, v, rfl, hrest, hat, hleaf⟩ := h
  refine ⟨k :: front, rest, v, rfl, hrest, ?_, hleaf⟩
  rw [at?_map_cons_of_find? hfind]
  exact hat

theorem Blocks.of_leaf {d : Section} {k k' : Scalar} {path : List Scalar} {v : Value}
    (hfind : find? d k = some v) (hleaf : v.isTable = false) : Blocks d (k :: k' :: path) := by
  refine ⟨[k], k' :: path, v, rfl, List.cons_ne_nil _ _, ?_, hleaf⟩
  rw [at?_map_cons_of_find? hfind]
  rfl

/-- Where the upper table is silent, and its silence does not come from something else than a table
on the way, the base has the word. -/
theorem at?_merge_of_silent {base upper : Section} (hupper : WellKeyed (map upper))
    {path : List Scalar} (hat : at? (map upper) path = none) (hfree : ¬Blocks upper path) :
    at? (map (merge base upper)) path = at? (map base) path := by
  induction path generalizing base upper with
  | nil => cases hat
  | cons k path ih =>
      cases hu : find? upper k with
      | none => exact at?_merge_of_find?_none base hupper.distinct hu path
      | some v =>
          rw [at?_map_cons_of_find? hu] at hat
          rw [at?_merge_of_find? base hupper.distinct hu]
          -- Every value has itself at its empty path, so the path goes on.
          obtain ⟨k', path', rfl⟩ : ∃ k' path', path = k' :: path' := by
            cases path with
            | nil => cases hat
            | cons k' path' => exact ⟨k', path', rfl⟩
          cases v with
          | scalar | list | set | pair | again => exact absurd (Blocks.of_leaf hu rfl) hfree
          | map upper' =>
              cases hb : find? base k with
              | none =>
                  rw [override_none, hat, at?_map_cons, hb]
                  rfl
              | some b =>
                  rw [at?_map_cons_of_find? hb]
                  cases b with
                  | map base' =>
                      apply ih (hupper.of_find? hu) hat
                      intro hblocks
                      exact hfree (hblocks.cons hu)
                  | scalar | list | set | pair | again => exact hat

/-! ## Writing a table again -/

/-- A table whose every value is there already and stays as it is changes nothing. -/
theorem merge_eq_self {base upper : Section}
    (h : ∀ e ∈ upper, ∃ v, find? base e.1 = some v ∧ override (some v) e.2 = v) :
    merge base upper = base := by
  induction upper with
  | nil => rw [merge]
  | cons e rest ih =>
      obtain ⟨v, hfind, hsame⟩ := h e List.mem_cons_self
      have hinsert : Table.insert base e.1 v = base := Table.insert_eq_self_iff.mpr hfind
      rw [merge, hfind, hsame, hinsert]
      apply ih
      intro e' he'
      exact h e' (List.mem_cons_of_mem e he')

theorem override_self {v : Value} (h : WellKeyed v) : override (some v) v = v := by
  induction h with
  | @map entries distinct _ ih =>
      have hmerge : merge entries entries = entries := by
        apply merge_eq_self
        intro e he
        exact ⟨e.2, Table.find?_of_mem distinct he, ih e he⟩
      rw [override, hmerge]
  | scalar | list | set | pair | again => rfl

theorem merge_self {d : Section} (h : WellKeyed (map d)) : merge d d = d := by
  cases h with
  | map distinct inner =>
      apply merge_eq_self
      intro e he
      exact ⟨e.2, Table.find?_of_mem distinct he, override_self (inner e he)⟩

/-- What stands under a key of the upper table after merging. -/
theorem find?_merge_of_mem (base : Section) {upper : Section} (h : Distinct upper)
    {e : Scalar × Value} (he : e ∈ upper) :
    find? (merge base upper) e.1 = some (override (find? base e.1) e.2) := by
  have hfind : find? upper e.1 = some e.2 := Table.find?_of_mem h he
  rw [find?_merge base h, hfind]

/-- To override with the same value twice is to do it once. -/
theorem override_override {v : Value} (h : WellKeyed v) (old : Option Value) :
    override (some (override old v)) v = override old v := by
  induction h generalizing old with
  | @map entries distinct inner ih =>
      rcases override_cases old (map entries) with hsame | ⟨base, _, -, heq, hmerged⟩
      · rw [hsame]
        exact override_self (.map distinct inner)
      · cases heq
        have hmerge : merge (merge base entries) entries = merge base entries := by
          apply merge_eq_self
          intro e he
          exact ⟨_, find?_merge_of_mem base distinct he, ih e he _⟩
        rw [hmerged, override, hmerge]
  | scalar | list | set | pair | again => rfl

theorem merge_merge_self (base : Section) {upper : Section} (h : WellKeyed (map upper)) :
    merge (merge base upper) upper = merge base upper := by
  cases h with
  | map distinct inner =>
      apply merge_eq_self
      intro e he
      exact ⟨_, find?_merge_of_mem base distinct he, override_override (inner e he) _⟩

/-! ## Three layers -/

theorem contains_merge (base : Section) {upper : Section} (h : Distinct upper) (k : Scalar) :
    contains (merge base upper) k = (contains base k || contains upper k) := by
  rw [contains, find?_merge base h, contains, contains]
  cases find? upper k with
  | none => simp
  | some v => simp

/-- Three layers can be merged in either order, if values under one key can. -/
theorem merge_assoc_of_values {a b c : Section} (ha : Distinct a) (hb : Distinct b)
    (hc : Distinct c)
    (h : ∀ k v w, find? b k = some v → find? c k = some w →
      override (some (override (find? a k) v)) w = override (find? a k) (override (some v) w)) :
    merge (merge a b) c = merge a (merge b c) := by
  have hbc : Distinct (merge b c) := distinct_merge hb c
  apply Table.ext_of_distinct (distinct_merge (distinct_merge ha b) c)
  · rw [keys_merge _ hc, keys_merge a hb, keys_merge a hbc, keys_merge b hc, List.filter_append,
      List.filter_filter, List.append_assoc]
    congr 2
    apply List.filter_congr
    intro k _
    rw [contains_merge a hb, Bool.not_or]
  · intro k _
    rw [find?_merge _ hc, find?_merge a hbc, find?_merge b hc, find?_merge a hb]
    cases hfc : find? c k with
    | none => rfl
    | some w =>
        cases hfb : find? b k with
        | none =>
            show some (override (find? a k) w) = some (override (find? a k) (override none w))
            rw [override_none]
        | some v => exact congrArg some (h k v w hfb hfc)

theorem Alike.of_find? {d d' : Section} (h : Alike (map d) (map d')) {k : Scalar} {v w : Value}
    (hv : find? d k = some v) (hw : find? d' k = some w) : Alike v w := by
  intro path x y hx hy
  rw [← at?_map_cons_of_find? hv] at hx
  rw [← at?_map_cons_of_find? hw] at hy
  exact h (k :: path) x y hx hy

/-- Values of three layers can be put over each other in either order, if the upper two agree on
what is a table.  Else a middle value that is no table would keep the table below it from the one
above. -/
theorem override_assoc {w : Value} (hw : WellKeyed w) {old : Option Value} {v : Value}
    (hold : ∀ o, old = some o → WellKeyed o) (hv : WellKeyed v) (halike : Alike v w) :
    override (some (override old v)) w = override old (override (some v) w) := by
  induction hw generalizing old v with
  | @map third hthird inner ih =>
      have htable : v.isTable = true := halike [] v (map third) rfl rfl
      cases v with
      | scalar | list | set | pair | again => cases htable
      | map second =>
          cases old with
          | none => rfl
          | some o =>
              cases o with
              | scalar | list | set | pair | again => rfl
              | map first =>
                  have hfirst : WellKeyed (map first) := hold _ rfl
                  apply congrArg map
                  apply merge_assoc_of_values hfirst.distinct hv.distinct hthird
                  intro k v' w' hv' hw'
                  obtain ⟨k', -, hmem⟩ := Table.mem_of_find? hw'
                  apply ih _ hmem
                  · intro o ho
                    exact hfirst.of_find? ho
                  · exact hv.of_find? hv'
                  · exact halike.of_find? hv' hw'
  | scalar | list | set | pair | again => rfl

theorem merge_assoc {a b c : Section} (ha : WellKeyed (map a)) (hb : WellKeyed (map b))
    (hc : WellKeyed (map c)) (halike : Alike (map b) (map c)) :
    merge (merge a b) c = merge a (merge b c) := by
  apply merge_assoc_of_values ha.distinct hb.distinct hc.distinct
  intro k v w hv hw
  apply override_assoc (hc.of_find? hw)
  · intro o ho
    exact ha.of_find? ho
  · exact hb.of_find? hv
  · exact halike.of_find? hv hw

/-! ## The laws together -/

/-- Merging, for tables that name no key twice at any depth.  Wherever two tables meet, the keys are
those of the base and then the new ones of the upper table, each in their order.  At every path:
something else than a table in the upper one stands in the merged table, and there is nothing behind
it; where the upper one has nothing, the base is as before; and a table that meets none stands as it
is.  A table merged into itself, or once more, changes nothing; and three tables may be merged in
either order if the second and the third have tables at the same paths, of those that both have. -/
theorem merge_by_paths {a b c : Section} (ha : WellKeyed (map a)) (hb : WellKeyed (map b))
    (hc : WellKeyed (map c)) :
    (∀ path t u, at? (map a) path = some (map t) → at? (map b) path = some (map u) →
      ∃ m, at? (map (merge a b)) path = some (map m) ∧
        keys m = keys t ++ (keys u).filter fun k => !contains t k) ∧
    (∀ path v, at? (map b) path = some v → v.isTable = false →
      at? (map (merge a b)) path = some v) ∧
    (∀ path, Blocks b path → at? (map (merge a b)) path = none) ∧
    (∀ path, at? (map b) path = none → ¬Blocks b path →
      at? (map (merge a b)) path = at? (map a) path) ∧
    (∀ path u, at? (map b) path = some (map u) → (∀ t, at? (map a) path ≠ some (map t)) →
      at? (map (merge a b)) path = some (map u)) ∧
    merge a a = a ∧
    merge (merge a b) b = merge a b ∧
    (Alike (map b) (map c) → merge (merge a b) c = merge a (merge b c)) := by
  refine ⟨?_, ?_, ?_, ?_, ?_, merge_self ha, merge_merge_self a hb, merge_assoc ha hb hc⟩
  · intro path t u ht hu
    exact ⟨merge t u, at?_merge_of_tables hb ht hu, keys_merge t (hb.of_at? hu).distinct⟩
  · intro path v hat hleaf
    exact at?_merge_of_upper hb hat (.inl hleaf)
  · intro path hblocks
    exact at?_merge_of_blocks hb hblocks
  · intro path hat hfree
    exact at?_merge_of_silent hb hat hfree
  · intro path u hat hbase
    exact at?_merge_of_upper hb hat (.inr hbase)

namespace Sample

/-- One key with a table of one key in it. -/
def nested (outer inner : Scalar) (n : Int) : Section :=
  [(outer, map [(inner, scalar (.int n))])]

theorem wellKeyed_single (k : Scalar) {v : Value} (h : WellKeyed v) : WellKeyed (map [(k, v)]) := by
  refine .map (List.pairwise_singleton _ _) ?_
  intro e he
  rw [List.mem_singleton.mp he]
  exact h

theorem wellKeyed_nested (outer inner : Scalar) (n : Int) :
    WellKeyed (map (nested outer inner n)) :=
  wellKeyed_single outer (wellKeyed_single inner (.scalar _))

theorem alike_single (k k' : Scalar) {v w : Value} (h : Alike v w) :
    Alike (map [(k, v)]) (map [(k', w)]) := by
  intro path x y hx hy
  cases path with
  | nil =>
      cases hx
      cases hy
      rfl
  | cons key path =>
      rw [at?_map_cons, Table.find?_cons] at hx hy
      by_cases hk : (key == k) = true
      · by_cases hk' : (key == k') = true
        · rw [if_pos hk] at hx
          rw [if_pos hk'] at hy
          exact h path x y hx hy
        · rw [if_neg hk'] at hy
          cases hy
      · rw [if_neg hk] at hx
        cases hx

theorem alike_scalar (s s' : Scalar) : Alike (scalar s) (scalar s') := by
  intro path x y hx hy
  cases path with
  | nil =>
      cases hx
      cases hy
      rfl
  | cons key path => cases hx

end Sample

/-- The number one and the truth value are one key, so three tables that spell it in both ways are
merged in one place, with the spelling of the first. -/
theorem merge_by_paths_sample :
    let a := Sample.nested (.int 1) (.text "p") 1
    let b := Sample.nested (.bool true) (.text "q") 2
    let c := Sample.nested (.int 1) (.text "p") 3
    (WellKeyed (map a) ∧ WellKeyed (map b) ∧ WellKeyed (map c) ∧ Alike (map b) (map c)) ∧
      (∃ m, at? (map (merge a b)) [.int 1] = some (map m) ∧ keys m = [.text "p", .text "q"]) ∧
      at? (map (merge a b)) [.int 1, .text "q"] = some (scalar (.int 2)) ∧
      at? (map (merge a b)) [.int 1, .text "q", .null] = none ∧
      at? (map (merge a b)) [.int 1, .text "p"] = some (scalar (.int 1)) ∧
      merge (merge a b) c = merge a (merge b c) := by
  intro a b c
  have ha : WellKeyed (map a) := Sample.wellKeyed_nested _ _ _
  have hb : WellKeyed (map b) := Sample.wellKeyed_nested _ _ _
  have hc : WellKeyed (map c) := Sample.wellKeyed_nested _ _ _
  have halike : Alike (map b) (map c) :=
    Sample.alike_single _ _ (Sample.alike_single _ _ (Sample.alike_scalar _ _))
  obtain ⟨htables, hleaf, hblocks, hsilent, -, -, -, hassoc⟩ := merge_by_paths ha hb hc
  have hq : at? (map b) [.int 1, .text "q"] = some (scalar (.int 2)) := rfl
  have hp : at? (map b) [.int 1, .text "p"] = none := rfl
  have hfree : ¬Blocks b [.int 1, .text "p"] := by
    intro ⟨front, rest, v, hpath, hrest, hat, hleaf⟩
    match front with
    | [] =>
        cases hat
        cases hleaf
    | [k] =>
        cases hpath
        cases hat
        cases hleaf
    | k :: k' :: more =>
        cases more <;> cases hpath
        exact hrest rfl
  refine ⟨⟨ha, hb, hc, halike⟩, ?_, ?_, ?_, ?_, hassoc halike⟩
  · exact htables [.int 1] _ _ rfl rfl
  · exact hleaf _ _ hq rfl
  · exact hblocks _ ⟨[.int 1, .text "q"], [.null], _, rfl, List.cons_ne_nil _ _, hq, rfl⟩
  · rw [hsilent _ hp hfree]
    rfl

/-- A middle layer without a table cuts off the first layer only if it is merged with that one. -/
example :
    let a := Sample.nested (.text "k") (.text "p") 1
    let b : Section := [(.text "k", scalar .null)]
    let c := Sample.nested (.text "k") (.text "q") 2
    (at? (map (merge (merge a b) c)) [.text "k", .text "p"]).isSome = false ∧
      (at? (map (merge a (merge b c))) [.text "k", .text "p"]).isSome = true := by
  decide +kernel

end Value
end Polyglot
