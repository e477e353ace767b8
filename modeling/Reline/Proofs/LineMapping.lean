/-
  Reline.Proofs.LineMapping

  What a line mapping answers, in terms of the pairs that it was made of.

  The pairs stand in any order and may repeat a line; the last pair of a line
  counts, also where the line decides for those below it. A flat list spells
  pairs exactly if it splits into pairs and all its numbers are lines. That its
  length is odd is reported first, and else the first number that is no line.

  Main statement: `ofFlat_resolves`.
-/

import Mathlib
import Reline.LineMapping
import Reline.Proofs.OrderedTable

namespace Reline.LineMapping

/-! ## Pairs -/

/-- Whether the last pair of a line leads to a target. -/
def LastTarget (pairs : List (UInt16 × UInt16)) (line target : UInt16) : Prop :=
  ∃ front back, pairs = front ++ (line, target) :: back ∧ ∀ pair ∈ back, pair.1 ≠ line

/-- How pairs in any order resolve a line. -/
inductive Resolves (pairs : List (UInt16 × UInt16)) (line : UInt16) : Resolution → Prop where
  /-- A pair has the line; the last one counts. -/
  | exact {target : UInt16} (last : LastTarget pairs line target) :
    Resolves pairs line (.exact target)
  /-- No pair has the line; the last one of the least greater line counts. -/
  | ceiling {next target : UInt16} (unlisted : line ∉ pairs.map Prod.fst) (above : line < next)
    (least : ∀ other ∈ pairs.map Prod.fst, line < other → next ≤ other)
    (last : LastTarget pairs next target) : Resolves pairs line (.ceiling target)
  /-- All lines of pairs are less. -/
  | unchanged (below : ∀ other ∈ pairs.map Prod.fst, other < line) :
    Resolves pairs line (.unchanged line)

variable {pairs : List (UInt16 × UInt16)}

theorem get?_ofPairs_iff {line target : UInt16} :
    (ofPairs pairs).table.get? line = some target ↔ LastTarget pairs line target := by
  rw [ofPairs, OrderedTable.get?_ofList, List.lookup_eq_some_iff]
  constructor
  · rintro ⟨back, front, hreverse, hback⟩
    refine ⟨front.reverse, back.reverse, ?_, fun pair hpair heq => ?_⟩
    · rw [← List.reverse_reverse pairs, hreverse]
      simp
    · have hne := hback pair (List.mem_reverse.1 hpair)
      simp [heq] at hne
  · rintro ⟨front, back, rfl, hback⟩
    refine ⟨back.reverse, front.reverse, by simp, fun pair hpair => ?_⟩
    have hne := hback pair (List.mem_reverse.1 hpair)
    simpa using Ne.symm hne

/-- The lines that a table lists are those of the pairs. -/
theorem isSome_get?_ofPairs_iff {line : UInt16} :
    ((ofPairs pairs).table.get? line).isSome = true ↔ line ∈ pairs.map Prod.fst := by
  rw [ofPairs, OrderedTable.get?_ofList, List.lookup_isSome_iff, List.mem_map]
  simp only [List.mem_reverse, beq_iff_eq, @eq_comm _ line]

/-- If no two pairs have one line, each is the last of its line. -/
theorem lastTarget_of_mem {line target : UInt16} (hnodup : (pairs.map Prod.fst).Nodup)
    (hmem : (line, target) ∈ pairs) : LastTarget pairs line target := by
  obtain ⟨front, back, rfl⟩ := List.append_of_mem hmem
  refine ⟨front, back, rfl, fun pair hpair heq => ?_⟩
  rw [List.map_append, List.map_cons, List.nodup_append, List.nodup_cons] at hnodup
  exact hnodup.2.1.1 (List.mem_map.2 ⟨pair, hpair, heq⟩)

theorem resolve_ofPairs_iff {line : UInt16} {resolution : Resolution} :
    (ofPairs pairs).resolve line = resolution ↔ Resolves pairs line resolution := by
  have hlisted (other : UInt16) :
      ((ofPairs pairs).table.get? other).isSome = true ↔ other ∈ pairs.map Prod.fst :=
    isSome_get?_ofPairs_iff
  have hunlisted : (ofPairs pairs).table.get? line = none ↔ line ∉ pairs.map Prod.fst := by
    rw [← Option.not_isSome_iff_eq_none, hlisted]
  constructor
  · rintro rfl
    rw [resolve]
    split
    case h_1 target hget => exact .exact (get?_ofPairs_iff.1 hget)
    case h_2 hget =>
      have hline := hunlisted.1 hget
      split
      case h_1 next target habove =>
        obtain ⟨hnext, hlast, hleast⟩ := OrderedTable.above?_eq_some_iff.1 habove
        refine .ceiling hline hnext (fun other hother hlt => ?_) (get?_ofPairs_iff.1 hlast)
        exact UInt16.not_lt.1 (hleast other ((hlisted other).2 hother) hlt)
      case h_2 habove =>
        have hnone := OrderedTable.above?_eq_none_iff.1 habove
        refine .unchanged fun other hother => ?_
        -- a line of a pair is not above this one, and not the same
        have hle := UInt16.not_lt.1 (hnone other ((hlisted other).2 hother))
        exact UInt16.lt_of_le_of_ne hle fun heq => hline (heq ▸ hother)
  · intro h
    rw [resolve]
    cases h with
    | exact last => rw [get?_ofPairs_iff.2 last]
    | @ceiling next target unlisted above least last =>
      have hfound : (ofPairs pairs).table.above? line = some (next, target) := by
        refine OrderedTable.above?_eq_some_iff.2 ⟨above, get?_ofPairs_iff.2 last, ?_⟩
        intro other hother hlt
        exact UInt16.not_lt.2 (least other ((hlisted other).1 hother) hlt)
      rw [hunlisted.2 unlisted, hfound]
    | unchanged below =>
      have hline : line ∉ pairs.map Prod.fst := fun hmem => UInt16.lt_irrefl line (below line hmem)
      have hnone : (ofPairs pairs).table.above? line = none := by
        refine OrderedTable.above?_eq_none_iff.2 fun other hother hlt => ?_
        exact UInt16.lt_asymm hlt (below other ((hlisted other).1 hother))
      rw [hunlisted.2 hline, hnone]

/-- A line of a pair goes where its last pair leads. -/
theorem mapLine_ofPairs {line target : UInt16} (h : LastTarget pairs line target) :
    (ofPairs pairs).mapLine line = target := by
  rw [mapLine, resolve_ofPairs_iff.2 (.exact h), Resolution.line]

/-- A table lists each line of the pairs once. -/
theorem size_ofPairs (pairs : List (UInt16 × UInt16)) :
    (ofPairs pairs).size = (pairs.map Prod.fst).toFinset.card := by
  have hnodup : ((ofPairs pairs).table.entries.map Prod.fst).Nodup := by
    rw [List.nodup_iff_pairwise_ne, List.pairwise_map]
    exact (ofPairs pairs).table.ascending.imp fun hlt => UInt16.ne_of_lt hlt
  have hsame : ((ofPairs pairs).table.entries.map Prod.fst).toFinset
      = (pairs.map Prod.fst).toFinset := by
    ext line
    rw [List.mem_toFinset, List.mem_toFinset, List.mem_map, ← OrderedTable.isSome_get?_iff,
      isSome_get?_ofPairs_iff]
  rw [← hsame, List.toFinset_card_of_nodup hnodup, List.length_map]
  rfl

/-! ## Flat lists -/

/-- Whether a number is a line. -/
def IsLine (value : Int) : Prop := 0 ≤ value ∧ value ≤ 65535

/-- The flat list of pairs. -/
def flatten (pairs : List (UInt16 × UInt16)) : List Int :=
  pairs.flatMap fun pair => [(pair.1.toNat : Int), (pair.2.toNat : Int)]

/-- A flat list spells one list of pairs. -/
theorem flatten_injective : Function.Injective flatten := by
  intro pairs pairs' h
  induction pairs generalizing pairs' with
  | nil =>
    cases pairs' with
    | nil => rfl
    | cons pair' pairs' => cases h
  | cons pair pairs ih =>
    cases pairs' with
    | nil => cases h
    | cons pair' pairs' =>
      obtain ⟨hline, htarget, hrest⟩ :
          pair.1.toNat = pair'.1.toNat ∧ pair.2.toNat = pair'.2.toNat
            ∧ flatten pairs = flatten pairs' := by
        simpa [flatten] using h
      rw [Prod.ext (UInt16.toNat_inj.1 hline) (UInt16.toNat_inj.1 htarget), ih hrest]

theorem toLine_of_isLine {value : Int} (h : IsLine value) (position : Nat) :
    ∃ line : UInt16, (line.toNat : Int) = value ∧ toLine position value = .ok line := by
  obtain ⟨hlow, hhigh⟩ := h
  refine ⟨UInt16.ofNat value.toNat, ?_, ?_⟩
  · rw [UInt16.toNat_ofNat']
    omega
  · rw [toLine, if_pos ⟨hlow, by omega⟩]

theorem toLine_of_not_isLine {value : Int} (h : ¬ IsLine value) (position : Nat) :
    toLine position value = .error (.lineOutOfRange position value) := by
  rw [toLine, if_neg]
  rintro ⟨hlow, hhigh⟩
  exact h ⟨hlow, by omega⟩

/-- Numbers that are lines, and split into pairs, are read as these pairs. -/
theorem exists_pairsOnto_eq_ok {flat : List Int} (heven : flat.length % 2 = 0)
    (hlines : ∀ value ∈ flat, IsLine value) (found : List (UInt16 × UInt16)) (position : Nat) :
    ∃ pairs, flatten pairs = flat
      ∧ pairsOnto found position flat = .ok (pairs.reverse ++ found) := by
  match flat with
  | [] => exact ⟨[], rfl, rfl⟩
  | [value] => simp at heven
  | first :: second :: rest =>
    obtain ⟨hfirst, hsecond, hrest⟩ : IsLine first ∧ IsLine second ∧ ∀ v ∈ rest, IsLine v := by
      simpa using hlines
    obtain ⟨line, rfl, hline⟩ := toLine_of_isLine hfirst position
    obtain ⟨target, rfl, htarget⟩ := toLine_of_isLine hsecond (position + 1)
    have hlength : rest.length % 2 = 0 := by
      rw [List.length_cons, List.length_cons] at heven
      omega
    obtain ⟨pairs, rfl, hpairs⟩ :=
      exists_pairsOnto_eq_ok hlength hrest ((line, target) :: found) (position + 2)
    refine ⟨(line, target) :: pairs, rfl, ?_⟩
    rw [pairsOnto, hline, htarget, List.reverse_cons, List.append_assoc, List.singleton_append]
    exact hpairs

/-- The first number that is no line is refused, whichever of a pair it is. -/
theorem pairsOnto_eq_error {front back : List Int} {value : Int}
    (heven : (front ++ value :: back).length % 2 = 0) (hfront : ∀ v ∈ front, IsLine v)
    (hvalue : ¬ IsLine value) (found : List (UInt16 × UInt16)) (position : Nat) :
    pairsOnto found position (front ++ value :: back)
      = .error (.lineOutOfRange (position + front.length) value) := by
  -- numbers are read by two, so the fault is in the first pair or behind it
  match front with
  | [] =>
    obtain ⟨second, rest, rfl⟩ : ∃ second rest, back = second :: rest := by
      refine List.exists_cons_of_ne_nil ?_
      rintro rfl
      simp at heven
    rw [List.nil_append, pairsOnto, toLine_of_not_isLine hvalue]
    rfl
  | [first] =>
    obtain ⟨line, -, hline⟩ := toLine_of_isLine (hfront first (List.mem_singleton_self _)) position
    rw [List.singleton_append, pairsOnto, hline, toLine_of_not_isLine hvalue]
    rfl
  | first :: second :: front =>
    obtain ⟨hfirst, hsecond, hfront⟩ : IsLine first ∧ IsLine second ∧ ∀ v ∈ front, IsLine v := by
      simpa using hfront
    obtain ⟨line, -, hline⟩ := toLine_of_isLine hfirst position
    obtain ⟨target, -, htarget⟩ := toLine_of_isLine hsecond (position + 1)
    have hlength : (front ++ value :: back).length % 2 = 0 := by
      simp only [List.cons_append, List.length_cons] at heven
      omega
    have hrest := pairsOnto_eq_error hlength hfront hvalue ((line, target) :: found) (position + 2)
    have hposition : position + (first :: second :: front).length
        = position + 2 + front.length := by
      simp only [List.length_cons]
      omega
    rw [List.cons_append, List.cons_append, pairsOnto, hline, htarget, hposition]
    exact hrest

/-- Numbers are all lines, or there is a first one that is none. -/
theorem isLine_or_exists_first (flat : List Int) :
    (∀ value ∈ flat, IsLine value)
      ∨ ∃ front value back, flat = front ++ value :: back ∧ (∀ v ∈ front, IsLine v)
        ∧ ¬ IsLine value := by
  induction flat with
  | nil => exact .inl (by simp)
  | cons first rest ih =>
    by_cases hfirst : IsLine first
    · rcases ih with hrest | ⟨front, value, back, rfl, hfront, hvalue⟩
      · exact .inl (List.forall_mem_cons.2 ⟨hfirst, hrest⟩)
      · exact .inr ⟨first :: front, value, back, rfl, List.forall_mem_cons.2 ⟨hfirst, hfront⟩,
          hvalue⟩
    · exact .inr ⟨[], first, rest, rfl, by simp, hfirst⟩

/-! ## Reading a flat list -/

theorem ofFlat_of_odd {flat : List Int} (h : flat.length % 2 ≠ 0) :
    ofFlat flat = .error (.oddLength flat.length) := by
  rw [ofFlat, if_pos h]

theorem exists_ofFlat_eq_ok {flat : List Int} (heven : flat.length % 2 = 0)
    (hlines : ∀ value ∈ flat, IsLine value) :
    ∃ pairs, flatten pairs = flat ∧ ofFlat flat = .ok (ofPairs pairs) := by
  obtain ⟨pairs, hflatten, hpairs⟩ := exists_pairsOnto_eq_ok heven hlines [] 0
  refine ⟨pairs, hflatten, ?_⟩
  rw [ofFlat, if_neg (by simp [heven]), hpairs]
  simp [bind, Except.bind, pure, Except.pure]

theorem ofFlat_eq_error {front back : List Int} {value : Int}
    (heven : (front ++ value :: back).length % 2 = 0) (hfront : ∀ v ∈ front, IsLine v)
    (hvalue : ¬ IsLine value) :
    ofFlat (front ++ value :: back) = .error (.lineOutOfRange front.length value) := by
  have hread := pairsOnto_eq_error heven hfront hvalue [] 0
  rw [Nat.zero_add] at hread
  rw [ofFlat, if_neg (by simp only [ne_eq, not_not]; exact heven), hread]
  rfl

/-- A flat list is refused for its length exactly if that is odd. Otherwise it is refused exactly if
some number in it is no line, and the first one is reported with its place. Otherwise it spells
pairs, and the mapping resolves each line as the last pairs of the lines do, and lists each line of
the pairs once. -/
theorem ofFlat_resolves (flat : List Int) :
    (∀ length, ofFlat flat = .error (.oddLength length)
        ↔ flat.length % 2 = 1 ∧ length = flat.length)
      ∧ ((∃ position value, ofFlat flat = .error (.lineOutOfRange position value))
        ↔ flat.length % 2 = 0 ∧ ∃ value ∈ flat, ¬ IsLine value)
      ∧ (∀ position value, ofFlat flat = .error (.lineOutOfRange position value)
        ↔ flat.length % 2 = 0 ∧ flat[position]? = some value ∧ ¬ IsLine value
          ∧ ∀ v ∈ flat.take position, IsLine v)
      ∧ (flat.length % 2 = 0 → (∀ value ∈ flat, IsLine value) →
        ∃ pairs m, flatten pairs = flat ∧ ofFlat flat = .ok m
          ∧ (∀ line resolution, m.resolve line = resolution ↔ Resolves pairs line resolution)
          ∧ m.size = (pairs.map Prod.fst).toFinset.card) := by
  have hodd (hlength : flat.length % 2 ≠ 0) := ofFlat_of_odd hlength
  have hsome : (∃ position value, ofFlat flat = .error (.lineOutOfRange position value))
      ↔ flat.length % 2 = 0 ∧ ∃ value ∈ flat, ¬ IsLine value := by
    by_cases heven : flat.length % 2 = 0
    · rcases isLine_or_exists_first flat with hlines | ⟨front, value, back, rfl, hfront, hvalue⟩
      · obtain ⟨pairs, -, hok⟩ := exists_ofFlat_eq_ok heven hlines
        refine ⟨fun ⟨_, _, herror⟩ => ?_, fun ⟨_, value, hmem, hvalue⟩ => ?_⟩
        · rw [hok] at herror
          contradiction
        · exact absurd (hlines value hmem) hvalue
      · have herror := ofFlat_eq_error heven hfront hvalue
        exact ⟨fun _ => ⟨heven, value, by simp, hvalue⟩, fun _ => ⟨_, _, herror⟩⟩
    · simp [hodd heven, heven]
  refine ⟨fun length => ?_, hsome, fun position value => ?_, fun heven hlines => ?_⟩
  · by_cases heven : flat.length % 2 = 0
    · rcases isLine_or_exists_first flat with hlines | ⟨front, value, back, rfl, hfront, hvalue⟩
      · obtain ⟨pairs, -, hok⟩ := exists_ofFlat_eq_ok heven hlines
        simp [hok, heven]
      · rw [ofFlat_eq_error heven hfront hvalue, heven]
        simp
    · have hone : flat.length % 2 = 1 := by omega
      simp [hodd heven, hone, eq_comm]
  · constructor
    · intro herror
      obtain ⟨heven, outside, hmem, houtside⟩ := hsome.1 ⟨position, value, herror⟩
      rcases isLine_or_exists_first flat with hlines | ⟨front, first, back, rfl, hfront, hfirst⟩
      · exact absurd (hlines outside hmem) houtside
      · -- what is reported is the first number that is no line
        rw [ofFlat_eq_error heven hfront hfirst] at herror
        cases herror
        refine ⟨heven, by simp, hfirst, ?_⟩
        rw [List.take_left]
        exact hfront
    · rintro ⟨heven, hget, hvalue, hfront⟩
      obtain ⟨hbound, hat⟩ := List.getElem?_eq_some_iff.1 hget
      have hsplit : flat.take position ++ value :: flat.drop (position + 1) = flat := by
        rw [← hat, List.getElem_cons_drop, List.take_append_drop]
      rw [← hsplit] at heven
      have herror := ofFlat_eq_error heven hfront hvalue
      rw [hsplit, List.length_take_of_le (Nat.le_of_lt hbound)] at herror
      exact herror
  · obtain ⟨pairs, hflatten, hok⟩ := exists_ofFlat_eq_ok heven hlines
    exact ⟨pairs, ofPairs pairs, hflatten, hok, fun _ _ => resolve_ofPairs_iff, size_ofPairs pairs⟩

/-- In the unsorted list of three pairs, 20 goes where the last one leads, and so does 15. -/
theorem ofFlat_resolves_repeated :
    ∃ m, ofFlat [20, 200, 10, 100, 20, 250] = .ok m ∧ m.resolve 20 = .exact 250
      ∧ m.resolve 15 = .ceiling 250 ∧ m.resolve 21 = .unchanged 21 ∧ m.size = 2 := by
  obtain ⟨-, -, -, hread⟩ := ofFlat_resolves [20, 200, 10, 100, 20, 250]
  obtain ⟨pairs, m, hflatten, hok, hresolve, hsize⟩ :=
    hread (by decide) (by simp [IsLine])
  cases flatten_injective (hflatten.trans (b := flatten [(20, 200), (10, 100), (20, 250)]) rfl)
  refine ⟨m, hok, (hresolve 20 _).2 ?_, (hresolve 15 _).2 ?_, (hresolve 21 _).2 ?_, ?_⟩
  · exact .exact ⟨[(20, 200), (10, 100)], [], rfl, by simp⟩
  · exact .ceiling (by simp) (by decide) (by simp)
      ⟨[(20, 200), (10, 100)], [], rfl, by simp⟩
  · exact .unchanged (by simp)
  · rw [hsize]
    decide

end Reline.LineMapping
