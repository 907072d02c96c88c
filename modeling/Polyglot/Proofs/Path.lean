/-
The extension of a path, read off the path as it is written.

A path is cut at its slashes, pieces that name nothing are left out, and the last piece that remains
is cut at its last dot.  Without any cutting, that piece stands at the front of the path or behind a
slash, and only slashes and single dots come after it (`IsLast`); it is made of a stem, a dot and the
extension, which has no dot of its own (`Ends`).  What stands before the piece and what comes after it
does not matter, and a text that is empty or has a dot or a slash in it is the extension of no path
(`CanEnd`).
-/
import Mathlib.Data.List.TakeWhile
import Polyglot.Path
import Polyglot.Proofs.Text.Split

namespace Polyglot
namespace Path

/-- What may come after the last component: slashes, each alone or with a single dot behind it. -/
inductive Trails : List Char → Prop where
  | nil : Trails []
  | slash {rest : List Char} (h : Trails rest) : Trails ('/' :: rest)
  | dot {rest : List Char} (h : Trails rest) : Trails ('/' :: '.' :: rest)

/-- The last component of a path that is neither empty nor a single dot. -/
structure IsLast (path name : List Char) : Prop where
  whole : '/' ∉ name
  nonempty : name ≠ []
  undotted : name ≠ ['.']
  stands : ∃ before after, path = before ++ name ++ after ∧
    (before = [] ∨ ∃ dir, before = dir ++ ['/']) ∧ Trails after

/-- The last component of the path is something, a dot and the extension. -/
structure Ends (path e : String) : Prop where
  last : ∃ stem, stem ≠ [] ∧ IsLast path.toList (stem ++ '.' :: e.toList)
  nonempty : e ≠ ""
  undotted : '.' ∉ e.toList

/-- A text that can be the extension of a path. -/
structure CanEnd (e : String) : Prop where
  nonempty : e ≠ ""
  undotted : '.' ∉ e.toList
  whole : '/' ∉ e.toList

/-! ## Pieces between slashes -/

/-- The pieces between slashes that name something. -/
def pieces (path : List Char) : List (List Char) :=
  (Text.split '/' path).filter fun piece => !(piece.isEmpty || piece == ['.'])

theorem components_eq (path : String) : components path = pieces path.toList := rfl

theorem pieces_append_slash (s t : List Char) : pieces (s ++ '/' :: t) = pieces s ++ pieces t := by
  rw [pieces, Text.split_append_cons, List.filter_append]
  rfl

theorem pieces_of_name {name : List Char} (hwhole : '/' ∉ name) (hne : name ≠ [])
    (hdot : name ≠ ['.']) : pieces name = [name] := by
  rw [pieces, Text.split_of_not_mem hwhole]
  simp [hne, hdot]

theorem Trails.append {s t : List Char} (hs : Trails s) (ht : Trails t) : Trails (s ++ t) := by
  induction hs with
  | nil => exact ht
  | slash _ ih => exact .slash ih
  | dot _ ih => exact .dot ih

/-- Nothing that trails names anything. -/
theorem pieces_append_of_trails {t : List Char} (h : Trails t) (s : List Char) :
    pieces (s ++ t) = pieces s := by
  induction h generalizing s with
  | nil => rw [List.append_nil]
  | @slash rest _ ih =>
      have hrest : pieces rest = [] := ih []
      rw [pieces_append_slash, hrest, List.append_nil]
  | @dot rest _ ih =>
      have hrest : pieces ('.' :: rest) = [] := ih ['.']
      rw [pieces_append_slash, hrest, List.append_nil]

theorem exists_last_slash {s : List Char} (h : '/' ∈ s) :
    ∃ dir piece, s = dir ++ '/' :: piece ∧ '/' ∉ piece := by
  obtain ⟨front, back, hsplit, hfront⟩ := List.eq_append_cons_of_mem (List.mem_reverse.mpr h)
  refine ⟨back.reverse, front.reverse, ?_, by simpa using hfront⟩
  rw [← List.reverse_reverse s, hsplit]
  simp

/-! ## The last component -/

theorem getLast?_pieces_of_isLast {path name : List Char} (h : IsLast path name) :
    (pieces path).getLast? = some name := by
  obtain ⟨before, after, rfl, hbefore, htrails⟩ := h.stands
  have hname := pieces_of_name h.whole h.nonempty h.undotted
  rw [pieces_append_of_trails htrails]
  rcases hbefore with rfl | ⟨dir, rfl⟩
  · rw [List.nil_append, hname, List.getLast?_singleton]
  · rw [List.append_assoc, List.singleton_append, pieces_append_slash, hname,
      List.getLast?_concat]

/-- A piece without slashes that names nothing is trailing behind a slash. -/
theorem trails_of_void {piece : List Char} (h : piece = [] ∨ piece = ['.']) :
    Trails ('/' :: piece) := by
  rcases h with rfl | rfl
  · exact .slash .nil
  · exact .dot .nil

theorem isLast_of_getLast?_pieces {path name : List Char}
    (h : (pieces path).getLast? = some name) : IsLast path name := by
  -- From the end of the path: its last piece is the name, or is left out with the slash before it.
  induction hlength : path.length using Nat.strongRecOn generalizing path with
  | ind n ih =>
    by_cases hslash : '/' ∈ path
    · obtain ⟨dir, piece, rfl, hwhole⟩ := exists_last_slash hslash
      by_cases hvoid : piece = [] ∨ piece = ['.']
      · have htrails := trails_of_void hvoid
        rw [pieces_append_of_trails htrails] at h
        obtain ⟨hname, hne, hdot, before, after, hdir, hbefore, hafter⟩ :=
          ih dir.length (by rw [← hlength, List.length_append, List.length_cons]; omega) h rfl
        refine ⟨hname, hne, hdot, before, after ++ '/' :: piece, ?_, hbefore,
          hafter.append htrails⟩
        rw [hdir, List.append_assoc]
      · obtain ⟨hne, hdot⟩ := not_or.mp hvoid
        rw [pieces_append_slash, pieces_of_name hwhole hne hdot, List.getLast?_concat] at h
        obtain rfl := Option.some.inj h
        exact ⟨hwhole, hne, hdot, dir ++ ['/'], [], by simp, .inr ⟨dir, rfl⟩, .nil⟩
    · by_cases hvoid : path = [] ∨ path = ['.']
      · rcases hvoid with rfl | rfl <;> cases h
      · obtain ⟨hne, hdot⟩ := not_or.mp hvoid
        rw [pieces_of_name hslash hne hdot] at h
        obtain rfl := Option.some.inj h
        exact ⟨hslash, hne, hdot, [], [], by simp, .inl rfl, .nil⟩

theorem getLast?_components_iff {path : String} {name : List Char} :
    (components path).getLast? = some name ↔ IsLast path.toList name :=
  ⟨isLast_of_getLast?_pieces, getLast?_pieces_of_isLast⟩

/-! ## The extension -/

/-- A name that is read from its end up to the first dot. -/
theorem span_reverse (stem : List Char) {e : List Char} (hdot : '.' ∉ e) :
    (stem ++ '.' :: e).reverse.takeWhile (· ≠ '.') = e.reverse ∧
      (stem ++ '.' :: e).reverse.dropWhile (· ≠ '.') = '.' :: stem.reverse := by
  have hne : ∀ c ∈ e.reverse, decide (c ≠ '.') = true := by
    intro c hc
    refine decide_eq_true fun heq => hdot ?_
    exact heq ▸ List.mem_reverse.mp hc
  have hreverse : (stem ++ '.' :: e).reverse = e.reverse ++ '.' :: stem.reverse := by simp
  rw [hreverse, List.takeWhile_append_of_pos hne, List.dropWhile_append_of_pos hne]
  simp

theorem nameExtension?_eq_some_iff {name e : List Char} :
    nameExtension? name = some e ↔
      e ≠ [] ∧ '.' ∉ e ∧ ∃ stem, stem ≠ [] ∧ name = stem ++ '.' :: e := by
  constructor
  · intro h
    rw [nameExtension?] at h
    split at h
    · rename_i c ext d x rest hext hrest
      obtain rfl := Option.some.inj h
      have hd : d = '.' := by
        have hhead := List.head?_dropWhile_not (fun c => decide (c ≠ '.')) name.reverse
        rw [hrest] at hhead
        simpa using hhead
      have hname : name.reverse = (c :: ext) ++ '.' :: x :: rest := by
        rw [← List.takeWhile_append_dropWhile (p := fun c => decide (c ≠ '.')) (l := name.reverse),
          hext, hrest, hd]
      refine ⟨by simp, fun hmem => ?_, (x :: rest).reverse, by simp, ?_⟩
      · rw [← hext] at hmem
        simpa using List.mem_takeWhile_imp (List.mem_reverse.mp hmem)
      · rw [← List.reverse_reverse name, hname]
        simp
    · cases h
  · rintro ⟨hne, hdot, stem, hstem, rfl⟩
    obtain ⟨htake, hdrop⟩ := span_reverse stem hdot
    rw [nameExtension?, htake, hdrop]
    obtain ⟨c, ext, hc⟩ := List.exists_cons_of_ne_nil (mt List.reverse_eq_nil_iff.mp hne)
    obtain ⟨x, rest, hx⟩ := List.exists_cons_of_ne_nil (mt List.reverse_eq_nil_iff.mp hstem)
    simp only [hc, hx]
    rw [← hc, List.reverse_reverse]

theorem extension?_eq_some_iff {path e : String} : extension? path = some e ↔ Ends path e := by
  have hofList {ext : List Char} : String.ofList ext = e ↔ ext = e.toList := by
    rw [← String.toList_inj, String.toList_ofList]
  simp only [extension?, Option.map_eq_some_iff, Option.bind_eq_some_iff, getLast?_components_iff,
    nameExtension?_eq_some_iff, hofList]
  constructor
  · rintro ⟨ext, ⟨name, hlast, hne, hdot, stem, hstem, rfl⟩, rfl⟩
    exact ⟨⟨stem, hstem, hlast⟩, fun hempty => hne (by rw [hempty]; rfl), hdot⟩
  · rintro ⟨⟨stem, hstem, hlast⟩, hne, hdot⟩
    refine ⟨e.toList, ⟨_, hlast, ?_, hdot, stem, hstem, rfl⟩, rfl⟩
    exact fun hnil => hne (String.toList_eq_nil_iff.mp hnil)

theorem Ends.canEnd {path e : String} (h : Ends path e) : CanEnd e := by
  obtain ⟨stem, -, hlast⟩ := h.last
  refine ⟨h.nonempty, h.undotted, fun hmem => hlast.whole ?_⟩
  exact List.mem_append_right stem (List.mem_cons_of_mem _ hmem)

/-- A text that can be an extension is that of every path that it is put behind, with a dot. -/
theorem ends_of_canEnd {stem e : String} (h : CanEnd e) (hstem : stem ≠ "")
    (hwhole : '/' ∉ stem.toList) : Ends (stem ++ "." ++ e) e := by
  have hname : (stem ++ "." ++ e).toList = stem.toList ++ '.' :: e.toList := by
    rw [String.toList_append, String.toList_append, List.append_assoc]
    rfl
  have hne : stem.toList ≠ [] := mt String.toList_eq_nil_iff.mp hstem
  refine ⟨⟨stem.toList, hne, ?_, by simp, ?_, [], [], by simp [hname], .inl rfl, .nil⟩,
    h.nonempty, h.undotted⟩
  · simp [hwhole, h.whole]
  · intro hsingle
    have hlength := congrArg List.length hsingle
    have hpos : 0 < stem.toList.length := List.length_pos_iff.mpr hne
    rw [List.length_append, List.length_cons, List.length_singleton] at hlength
    omega

/-! ## What does not matter -/

/-- A directory in front of a path that names something does not matter. -/
theorem extension?_behind {path : String} {name : List Char} (h : IsLast path.toList name)
    (dir : String) : extension? (dir ++ "/" ++ path) = extension? path := by
  have hlist : (dir ++ "/" ++ path).toList = dir.toList ++ '/' :: path.toList := by
    rw [String.toList_append, String.toList_append, List.append_assoc]
    rfl
  have hlast := getLast?_pieces_of_isLast h
  rw [extension?, extension?, components_eq, components_eq, hlist, pieces_append_slash,
    List.getLast?_append, hlast]
  rfl

/-- What trails behind a path does not matter. -/
theorem extension?_append_of_trails {t : String} (h : Trails t.toList) (path : String) :
    extension? (path ++ t) = extension? path := by
  rw [extension?, extension?, components_eq, components_eq, String.toList_append,
    pieces_append_of_trails h]

end Path
end Polyglot
