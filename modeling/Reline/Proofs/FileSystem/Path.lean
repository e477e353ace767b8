/-
  Reline.Proofs.FileSystem.Path

  Paths of places.

  The path of a place is made of its names, so its segments are the names again
  behind an empty first one. That holds for names as they can stand in a
  directory: without a slash, and none of the names that mean something else.
  Two such places have one path only if they are one.
-/

import Reline.FileSystem.Resolve

namespace Reline.FileSystem

/-! ## Splitting -/

namespace Path

theorem splitSlash_ne_nil (chars : List Char) : splitSlash chars ≠ [] := by
  cases chars with
  | nil => exact List.cons_ne_nil _ _
  | cons c chars =>
    rw [splitSlash]
    split
    · exact List.cons_ne_nil _ _
    · split <;> exact List.cons_ne_nil _ _

/-- A slash opens a new segment, any other character belongs to the first one. -/
theorem exists_splitSlash_cons (c : Char) (chars : List Char) :
    ∃ first rest, splitSlash chars = first :: rest ∧ splitSlash (c :: chars)
      = if c = '/' then [] :: first :: rest else (c :: first) :: rest := by
  obtain ⟨first, rest, hsplit⟩ := List.exists_cons_of_ne_nil (splitSlash_ne_nil chars)
  refine ⟨first, rest, hsplit, ?_⟩
  rw [splitSlash, hsplit]

/-- Characters in front of a slash are a segment. -/
theorem splitSlash_append {front : List Char} (h : '/' ∉ front) (back : List Char) :
    splitSlash (front ++ '/' :: back) = front :: splitSlash back := by
  induction front with
  | nil =>
    -- nothing stands in front of the slash: the first segment is empty
    obtain ⟨first, rest, hback, hslash⟩ := exists_splitSlash_cons '/' back
    rw [List.nil_append, hslash, if_pos rfl, hback]
  | cons c front ih =>
    rw [List.mem_cons, not_or] at h
    obtain ⟨first, rest, hback, hsplit⟩ := exists_splitSlash_cons c (front ++ '/' :: back)
    rw [ih h.2, List.cons.injEq] at hback
    rw [List.cons_append, hsplit, if_neg (Ne.symm h.1), hback.1, hback.2]

theorem splitSlash_of_not_mem {segment : List Char} (h : '/' ∉ segment) :
    splitSlash segment = [segment] := by
  induction segment with
  | nil => rfl
  | cons c segment ih =>
    rw [List.mem_cons, not_or] at h
    obtain ⟨first, rest, hrest, hsplit⟩ := exists_splitSlash_cons c segment
    rw [ih h.2, List.cons.injEq] at hrest
    rw [hsplit, if_neg (Ne.symm h.1), hrest.1, ← hrest.2]

theorem not_mem_of_mem_splitSlash {chars segment : List Char} (h : segment ∈ splitSlash chars) :
    '/' ∉ segment := by
  induction chars generalizing segment with
  | nil =>
    rw [splitSlash, List.mem_singleton] at h
    exact h ▸ List.not_mem_nil
  | cons c chars ih =>
    obtain ⟨first, rest, hchars, hsplit⟩ := exists_splitSlash_cons c chars
    rw [hchars] at ih
    rw [hsplit] at h
    split at h
    case isTrue hc =>
      rcases List.mem_cons.1 h with rfl | hmem
      · exact List.not_mem_nil
      · exact ih hmem
    case isFalse hc =>
      rcases List.mem_cons.1 h with rfl | hmem
      · rw [List.mem_cons, not_or]
        exact ⟨Ne.symm hc, ih (List.mem_cons_self ..)⟩
      · exact ih (List.mem_cons_of_mem _ hmem)

theorem splitSlash_intercalate {lists : List (List Char)} (hne : lists ≠ [])
    (h : ∀ list ∈ lists, '/' ∉ list) : splitSlash (['/'].intercalate lists) = lists := by
  induction lists with
  | nil => contradiction
  | cons list rest ih =>
    have hlist := h list (List.mem_cons_self ..)
    cases rest with
    | nil => rw [List.intercalate_singleton, splitSlash_of_not_mem hlist]
    | cons next rest =>
      rw [List.intercalate_cons_cons, List.append_assoc, List.singleton_append,
        splitSlash_append hlist, ih (List.cons_ne_nil _ _)]
      exact fun l hl => h l (List.mem_cons_of_mem _ hl)

/-- Names without slashes are the segments of the path that they make. -/
theorem segments_ofSegments {names : List String} (hne : names ≠ [])
    (h : ∀ name ∈ names, '/' ∉ name.toList) : segments (ofSegments names) = names := by
  have hlists : ∀ list ∈ names.map String.toList, '/' ∉ list := by
    intro list hlist
    obtain ⟨name, hname, rfl⟩ := List.mem_map.1 hlist
    exact h name hname
  have hslash : "/".toList = ['/'] := rfl
  rw [segments, ofSegments, String.toList_intercalate, hslash,
    splitSlash_intercalate (by simpa using hne) hlists, List.map_map]
  have hid : String.ofList ∘ String.toList = id := String.ofList_comp_toList
  rw [hid, List.map_id]

theorem not_mem_of_mem_segments {path segment : String} (h : segment ∈ segments path) :
    '/' ∉ segment.toList := by
  obtain ⟨chars, hchars, rfl⟩ := List.mem_map.1 h
  rw [String.toList_ofList]
  exact not_mem_of_mem_splitSlash hchars

/-- The path of a link is followed by segments without slashes. -/
theorem forall_segments_append {rest : List String} (goal : String)
    (h : ∀ segment ∈ rest, '/' ∉ segment.toList) :
    ∀ segment ∈ segments goal ++ rest, '/' ∉ segment.toList :=
  List.forall_mem_append.2 ⟨fun _ hsegment => not_mem_of_mem_segments hsegment, h⟩

end Path

/-! ## Names and places -/

/-- Whether a text can be the name of something in a directory. -/
structure IsName (name : String) : Prop where
  noSlash : '/' ∉ name.toList
  notNeutral : Path.isNeutral name = false
  notAbove : name ≠ ".."

theorem IsName.ne_empty {name : String} (h : IsName name) : name ≠ "" := by
  rintro rfl
  exact absurd h.notNeutral (by decide)

theorem pathOf_eq {location : Location} (h : location ≠ []) :
    pathOf location = Path.ofSegments ("" :: location) := by
  rw [pathOf, Path.ofSegments, Path.ofSegments, String.intercalate_cons_of_ne_nil h]
  simp

/-- The segments of the path of a place. -/
theorem segments_pathOf {location : Location} (hne : location ≠ [])
    (h : ∀ name ∈ location, IsName name) : Path.segments (pathOf location) = "" :: location := by
  rw [pathOf_eq hne]
  apply Path.segments_ofSegments (List.cons_ne_nil _ _)
  intro name hname
  rcases List.mem_cons.1 hname with rfl | hname
  · exact List.not_mem_nil
  · exact (h name hname).noSlash

/-- The path of a place names its names. -/
theorem names_pathOf {location : Location} (hne : location ≠ [])
    (h : ∀ name ∈ location, IsName name) : Path.names (pathOf location) = location := by
  rw [Path.names, segments_pathOf hne h, List.filter_cons_of_neg (by decide), List.filter_eq_self]
  intro name hname
  rw [(h name hname).notNeutral]
  rfl

/-- Places with one path are one. -/
theorem pathOf_injective {location location' : Location} (hne : location ≠ [])
    (h : ∀ name ∈ location, IsName name) (h' : ∀ name ∈ location', IsName name)
    (heq : pathOf location = pathOf location') : location = location' := by
  cases location' with
  | nil =>
    -- the path of the root has no names
    have hroot : Path.segments (pathOf []) = ["", ""] := by decide
    have hsegments := segments_pathOf hne h
    rw [heq, hroot, List.cons.injEq] at hsegments
    have hempty : "" ∈ location := hsegments.2 ▸ List.mem_singleton_self _
    exact absurd rfl (h "" hempty).ne_empty
  | cons name rest =>
    have hsegments := segments_pathOf hne h
    rw [heq, segments_pathOf (List.cons_ne_nil _ _) h', List.cons.injEq] at hsegments
    exact hsegments.2.symm

theorem isAbsolute_pathOf (location : Location) : Path.isAbsolute (pathOf location) = true := by
  rw [Path.isAbsolute, pathOf, String.toList_append]
  rfl

theorem Path.isAbsolute_append {path : String} (h : Path.isAbsolute path = true)
    (ending : String) : Path.isAbsolute (path ++ ending) = true := by
  rw [Path.isAbsolute, decide_eq_true_eq] at h ⊢
  rw [String.toList_append]
  cases hchars : path.toList with
  | nil =>
    rw [hchars] at h
    contradiction
  | cons c rest =>
    rw [hchars] at h
    exact h

/-- What is taken from the root begins at the root. -/
theorem Path.isAbsolute_absolute {current : String} (h : Path.isAbsolute current = true)
    (path : String) : Path.isAbsolute (Path.absolute current path) = true := by
  have hjoin {base : String} (hbase : Path.isAbsolute base = true) (relative : String) :
      Path.isAbsolute (Path.join base relative) = true := by
    rw [Path.join]
    split
    · exact Path.isAbsolute_append hbase relative
    · rw [String.append_assoc]
      exact Path.isAbsolute_append hbase _
  have hfoldl {base : String} (hbase : Path.isAbsolute base = true) (names : List String) :
      Path.isAbsolute (names.foldl Path.join base) = true := by
    induction names generalizing base with
    | nil => exact hbase
    | cons name names ih => exact ih (hjoin hbase name)
  have hended {base : String} (hbase : Path.isAbsolute base = true) :
      Path.isAbsolute (if Path.endsWithSlash path
        && !Path.endsWithSlash ((Path.names path).foldl Path.join base) then
          (Path.names path).foldl Path.join base ++ "/"
        else (Path.names path).foldl Path.join base) = true := by
    split
    · exact Path.isAbsolute_append (hfoldl hbase _) "/"
    · exact hfoldl hbase _
  rw [Path.absolute]
  -- whichever way the path begins, it is taken from a path that begins with a slash
  split
  · exact hended rfl
  · exact hended rfl
  · exact hended rfl
  · exact hended h

/-- An ending of the path of a place is one of its last name. -/
theorem pathOf_append (dir : Location) (name ending : String) :
    pathOf (dir ++ [name]) ++ ending = pathOf (dir ++ [name ++ ending]) := by
  rw [pathOf, pathOf, Path.ofSegments, Path.ofSegments]
  by_cases hdir : dir = []
  · rw [hdir, List.nil_append, List.nil_append, String.intercalate_singleton,
      String.intercalate_singleton, String.append_assoc]
  · rw [String.intercalate_append_of_ne_nil hdir (List.cons_ne_nil _ _),
      String.intercalate_append_of_ne_nil hdir (List.cons_ne_nil _ _),
      String.intercalate_singleton, String.intercalate_singleton]
    simp only [String.append_assoc]

end Reline.FileSystem
