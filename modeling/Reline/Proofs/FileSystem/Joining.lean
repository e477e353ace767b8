/-
  Reline.Proofs.FileSystem.Joining

  The names of joined paths and of parents.

  A path that is joined to another has the names of both, one behind the other, and
  the parent of a path has all its names but the last. Both begin where the path
  begins that they were made of: at the root or in the current directory.

  Main statements: `Path.names_join`, `Above.exists_take`.
-/

import Reline.Proofs.FileSystem.Making
import Reline.Proofs.FileSystem.Walking

namespace Reline.FileSystem

namespace Path

/-! ## Segments -/

/-- A slash in the middle separates the segments on both sides. -/
theorem splitSlash_append_cons (front back : List Char) :
    splitSlash (front ++ '/' :: back) = splitSlash front ++ splitSlash back := by
  induction front with
  | nil => exact splitSlash_append List.not_mem_nil back
  | cons c front ih =>
    obtain ⟨first, rest, hfront, hsplit⟩ := exists_splitSlash_cons c front
    obtain ⟨first', rest', hall, hsplit'⟩ := exists_splitSlash_cons c (front ++ '/' :: back)
    rw [ih, hfront, List.cons_append, List.cons.injEq] at hall
    rw [List.cons_append, hsplit', hsplit, ← hall.1, ← hall.2]
    split <;> rfl

theorem segments_append_slash (front back : String) :
    segments (front ++ "/" ++ back) = segments front ++ segments back := by
  have hlist : (front ++ "/" ++ back).toList = front.toList ++ '/' :: back.toList := by
    rw [String.toList_append, String.toList_append, List.append_assoc]
    rfl
  rw [segments, hlist, splitSlash_append_cons, List.map_append, segments, segments]

theorem names_eq_namesOf (path : String) : names path = namesOf (segments path) := rfl

/-- A path begins at the root if its first segment is empty and not the only one. -/
theorem isAbsolute_iff {path : String} :
    isAbsolute path = true ↔ ∃ second rest, segments path = "" :: second :: rest := by
  rw [isAbsolute, decide_eq_true_iff, segments]
  cases path.toList with
  | nil => simp [splitSlash]
  | cons c chars =>
    obtain ⟨first, rest, -, hsplit⟩ := exists_splitSlash_cons c chars
    rw [hsplit, List.head?_cons, Option.some.injEq]
    split
    case isTrue hslash => exact iff_of_true hslash ⟨_, _, rfl⟩
    case isFalse hslash => exact iff_of_false hslash (by simp)

/-! ## Joined paths -/

/-- A path that ends with a slash is one with an empty segment behind it. -/
theorem exists_of_endsWithSlash {path : String} (h : endsWithSlash path = true) :
    ∃ front, path = front ++ "/" := by
  rw [endsWithSlash, decide_eq_true_iff] at h
  obtain ⟨front, hfront⟩ := List.getLast?_eq_some_iff.1 h
  refine ⟨String.ofList front, String.toList_inj.1 ?_⟩
  rw [hfront, String.toList_append, String.toList_ofList]
  rfl

theorem names_append_slash (path : String) : names (path ++ "/") = names path := by
  have happend := segments_append_slash path ""
  rw [String.append_empty] at happend
  rw [names_eq_namesOf, happend, namesOf_append, names_eq_namesOf]
  exact List.append_nil _

/-- A joined path has the names of both. -/
theorem names_join (base relative : String) :
    names (join base relative) = names base ++ names relative := by
  rw [join]
  split
  case isTrue h =>
    rcases (Bool.or_eq_true ..).mp h with hempty | hslash
    · rw [of_decide_eq_true hempty, String.empty_append]
      rfl
    · obtain ⟨front, rfl⟩ := exists_of_endsWithSlash hslash
      rw [names_append_slash, names_eq_namesOf, segments_append_slash, namesOf_append]
      rfl
  case isFalse => rw [names_eq_namesOf, segments_append_slash, namesOf_append]; rfl

/-- A joined path begins where the first one does. -/
theorem isAbsolute_join (base : String) {relative : String} (h : isAbsolute relative = false) :
    isAbsolute (join base relative) = isAbsolute base := by
  have hhead (behind : String) (hne : base ≠ "") :
      (base ++ behind).toList.head? = base.toList.head? := by
    rw [String.toList_append]
    cases hbase : base.toList with
    | nil => exact absurd (String.toList_inj.1 hbase) hne
    | cons c chars => rfl
  rw [join]
  split
  case isTrue hslash =>
    by_cases hempty : base = ""
    · rw [hempty, String.empty_append, h]
      rfl
    · rw [isAbsolute, hhead _ hempty, isAbsolute]
  case isFalse hslash =>
    have hempty : base ≠ "" := by
      rintro rfl
      exact hslash rfl
    rw [isAbsolute, String.append_assoc, hhead _ hempty, isAbsolute]

/-! ## Parents -/

theorem namesOf_reverse (segments : List String) :
    namesOf segments.reverse = (namesOf segments).reverse :=
  List.filter_reverse ..

theorem namesOf_dropWhile (segments : List String) :
    namesOf (segments.dropWhile isNeutral) = namesOf segments := by
  induction segments with
  | nil => rfl
  | cons segment rest ih =>
    cases hneutral : isNeutral segment with
    | true => rw [List.dropWhile_cons_of_pos hneutral, ih, namesOf_cons_of_neutral hneutral]
    | false => rw [List.dropWhile_cons_of_neg (by rw [hneutral]; exact Bool.false_ne_true)]

theorem namesOf_trimEnd (segments : List String) :
    namesOf (trimEnd segments) = namesOf segments := by
  rw [trimEnd, namesOf_reverse, namesOf_dropWhile, namesOf_reverse, List.reverse_reverse]

/-- What is left of segments ends in a name. -/
theorem exists_trimEnd_eq {segments : List String} (h : trimEnd segments ≠ []) :
    ∃ front last, trimEnd segments = front ++ [last] ∧ isNeutral last = false := by
  rw [trimEnd] at h ⊢
  cases hdrop : segments.reverse.dropWhile isNeutral with
  | nil => rw [hdrop] at h; contradiction
  | cons last front =>
    refine ⟨front.reverse, last, List.reverse_cons, ?_⟩
    have hhead := List.head?_dropWhile_not isNeutral segments.reverse
    rw [hdrop] at hhead
    simpa using hhead

theorem leading_trimEnd (segments : List String) : trimEnd segments <+: segments := by
  rw [trimEnd, ← List.reverse_suffix, List.reverse_reverse]
  exact List.dropWhile_suffix _

/-- The segment that a path cannot do without, and the others. -/
theorem anchor_cases (path : String) :
    (segments path = [""] ∧ anchor path = (none, []))
      ∨ (∃ second rest, segments path = "" :: second :: rest
        ∧ anchor path = (some "", second :: rest))
      ∨ (∃ rest, segments path = "." :: rest ∧ anchor path = (some ".", rest))
      ∨ ∃ first rest, segments path = first :: rest ∧ first ≠ ""
        ∧ anchor path = (none, first :: rest) := by
  rw [anchor]
  have hne : segments path ≠ [] := by
    rw [segments]
    exact fun h => splitSlash_ne_nil _ (List.map_eq_nil_iff.1 h)
  obtain ⟨first, rest, hsegments⟩ := List.exists_cons_of_ne_nil hne
  rw [hsegments]
  by_cases hempty : first = ""
  · subst hempty
    cases rest with
    | nil => exact .inl ⟨rfl, rfl⟩
    | cons second rest => exact .inr (.inl ⟨second, rest, rfl, rfl⟩)
  · by_cases hdot : first = "."
    · subst hdot
      exact .inr (.inr (.inl ⟨rest, rfl, rfl⟩))
    · refine .inr (.inr (.inr ⟨first, rest, rfl, hempty, ?_⟩))
      split
      case h_1 heq => exact absurd (List.cons.inj heq).1 hempty
      case h_2 heq => exact absurd (List.cons.inj heq).1 hempty
      case h_3 heq => exact absurd (List.cons.inj heq).1 hdot
      case h_4 => rfl

/-- Segments that are taken from those of a path make a path with the same names. -/
theorem names_ofSegments {list : List String} (h : ∀ segment ∈ list, '/' ∉ segment.toList) :
    names (ofSegments list) = namesOf list := by
  cases list with
  | nil => rfl
  | cons first rest => rw [names_eq_namesOf, segments_ofSegments (List.cons_ne_nil _ _) h]

theorem isAbsolute_ofSegments {list : List String} (h : ∀ segment ∈ list, '/' ∉ segment.toList)
    (hfirst : list.head? ≠ some "") : isAbsolute (ofSegments list) = false := by
  rw [← Bool.not_eq_true, isAbsolute_iff]
  rintro ⟨second, rest, hsegments⟩
  cases list with
  | nil =>
    have hempty : segments (ofSegments []) = [""] := rfl
    rw [hempty] at hsegments
    cases hsegments
  | cons first behind =>
    rw [segments_ofSegments (List.cons_ne_nil _ _) h] at hsegments
    cases hsegments
    exact hfirst rfl

/-- What is left of segments when the last of their names is gone. -/
theorem namesOf_dropLast_trimEnd {rest left : List String} {segment : String}
    (htrim : trimEnd rest = segment :: left) :
    namesOf (trimEnd (segment :: left).dropLast) = (namesOf rest).dropLast
      ∧ trimEnd (segment :: left).dropLast <+: rest := by
  obtain ⟨front, last, hfront, hlast⟩ :=
    exists_trimEnd_eq (htrim ▸ List.cons_ne_nil segment left : trimEnd rest ≠ [])
  rw [← htrim]
  refine ⟨?_, (leading_trimEnd _).trans ((List.dropLast_prefix _).trans (leading_trimEnd rest))⟩
  rw [namesOf_trimEnd, ← namesOf_trimEnd rest, hfront, List.dropLast_concat, namesOf_append,
    namesOf_cons_of_entry hlast]
  exact List.dropLast_concat.symm

section Parents

variable {path above first : String} {rest : List String}

/-- The parent of a path keeps its anchor and segments in front of its last name, unless the path
has no names: then it is empty, if the path says that it begins at the current directory. -/
theorem parent_cases {first : Option String} (h : parent path = some above)
    (hanchor : anchor path = (first, rest)) :
    first = some "." ∧ namesOf rest = [] ∧ above = ""
      ∨ ∃ left, left <+: rest ∧ namesOf left = (namesOf rest).dropLast
        ∧ above = ofAnchor (first, left) := by
  rw [parent, hanchor] at h
  dsimp only at h
  split at h
  case h_1 htrim =>
    split at h
    case isTrue hdot =>
      cases h
      refine .inl ⟨hdot, ?_, rfl⟩
      rw [← namesOf_trimEnd rest, htrim]
      rfl
    case isFalse => contradiction
  case h_2 segment behind htrim =>
    cases h
    obtain ⟨hnames, hleading⟩ := namesOf_dropLast_trimEnd htrim
    exact .inr ⟨_, hleading, hnames, rfl⟩

/-- The parent of a path from the root. -/
theorem names_of_parent_of_root {second : String} (h : parent path = some above)
    (hsegments : segments path = "" :: second :: rest)
    (hanchor : anchor path = (some "", second :: rest)) :
    names above = (names path).dropLast ∧ isAbsolute above = isAbsolute path := by
  have habsolute : isAbsolute path = true := isAbsolute_iff.2 ⟨second, rest, hsegments⟩
  rcases parent_cases h hanchor with ⟨hdot, -⟩ | ⟨left, hleading, hnames, rfl⟩
  · exact absurd hdot (by decide)
  · have hlist : ∀ s ∈ left, '/' ∉ s.toList := fun s hs =>
      not_mem_of_mem_segments (hsegments ▸ List.mem_cons_of_mem _ (hleading.subset hs))
    have hroot : names (ofAnchor (some "", left)) = names (ofSegments left) := by
      have happend := segments_append_slash "" (ofSegments left)
      rw [String.empty_append] at happend
      rw [ofAnchor, names_eq_namesOf, happend]
      rfl
    refine ⟨?_, ?_⟩
    · rw [hroot, names_ofSegments hlist, hnames, names_eq_namesOf, hsegments]
      rfl
    · rw [habsolute]
      exact isAbsolute_append rfl _

/-- A path whose first segment is not empty does not begin at the root. -/
theorem isAbsolute_of_first (hsegments : segments path = first :: rest) (hne : first ≠ "") :
    isAbsolute path = false := by
  rw [← Bool.not_eq_true, isAbsolute_iff, hsegments]
  rintro ⟨second, rest, heq⟩
  exact hne (List.cons.inj heq).1

/-- The parent of a path that says that it begins at the current directory. -/
theorem names_of_parent_of_dot (h : parent path = some above)
    (hsegments : segments path = "." :: rest) (hanchor : anchor path = (some ".", rest)) :
    names above = (names path).dropLast ∧ isAbsolute above = isAbsolute path := by
  have hdot : names path = namesOf rest := by
    rw [names_eq_namesOf, hsegments]
    rfl
  rw [isAbsolute_of_first hsegments (by decide), hdot]
  rcases parent_cases h hanchor with ⟨-, hnone, rfl⟩ | ⟨left, hleading, hnames, rfl⟩
  · rw [hnone]
    exact ⟨rfl, rfl⟩
  · have hlist : ∀ s ∈ "." :: left, '/' ∉ s.toList := by
      intro s hs
      refine not_mem_of_mem_segments (hsegments ▸ List.mem_cons.2 ?_)
      exact (List.mem_cons.1 hs).imp_right fun hs => hleading.subset hs
    have hsame : ofAnchor (some ".", left) = ofSegments ("." :: left) := rfl
    rw [hsame, names_ofSegments hlist, ← hnames]
    exact ⟨rfl, isAbsolute_ofSegments hlist (by simp)⟩

/-- The parent of a path that begins with a name. -/
theorem names_of_parent_of_name (h : parent path = some above)
    (hsegments : segments path = first :: rest) (hne : first ≠ "")
    (hanchor : anchor path = (none, first :: rest)) :
    names above = (names path).dropLast ∧ isAbsolute above = isAbsolute path := by
  rw [isAbsolute_of_first hsegments hne]
  rcases parent_cases h hanchor with ⟨hdot, -⟩ | ⟨left, hleading, hnames, rfl⟩
  · contradiction
  · have hlist : ∀ s ∈ left, '/' ∉ s.toList := fun s hs =>
      not_mem_of_mem_segments (hsegments ▸ hleading.subset hs)
    refine ⟨?_, isAbsolute_ofSegments hlist fun hhead => ?_⟩
    · rw [ofAnchor, names_ofSegments hlist, hnames, names_eq_namesOf, hsegments]
    · obtain ⟨behind, hbehind⟩ := hleading
      cases left with
      | nil => contradiction
      | cons s list =>
        cases hhead
        exact hne (List.cons.inj hbehind).1.symm

/-- The parent of a path has its names but the last, and begins where it does. -/
theorem names_of_parent (h : parent path = some above) :
    names above = (names path).dropLast ∧ isAbsolute above = isAbsolute path := by
  rcases anchor_cases path with ⟨hsegments, hanchor⟩ | ⟨second, rest, hsegments, hanchor⟩
      | ⟨rest, hsegments, hanchor⟩ | ⟨first, rest, hsegments, hne, hanchor⟩
  · rw [parent, hanchor] at h
    contradiction
  · exact names_of_parent_of_root h hsegments hanchor
  · exact names_of_parent_of_dot h hsegments hanchor
  · exact names_of_parent_of_name h hsegments hne hanchor

end Parents

end Path

/-- A path above another has some of its first names, and begins where it does. -/
theorem Above.exists_take {path above : String} (h : Above path above) :
    ∃ k, Path.names above = (Path.names path).take k
      ∧ Path.isAbsolute above = Path.isAbsolute path := by
  induction h with
  | self => exact ⟨_, List.take_length.symm, rfl⟩
  | parent next isParent ih =>
    obtain ⟨k, hnames, habsolute⟩ := ih
    obtain ⟨hparent, habsolute'⟩ := Path.names_of_parent isParent
    refine ⟨min k (Path.names path).length - 1, ?_, habsolute'.trans habsolute⟩
    rw [hparent, hnames, List.dropLast_eq_take, List.length_take, List.take_take]
    congr 1
    omega

end Reline.FileSystem
