/-
  Reline.Proofs.LineMapping.Equality

  When two line mappings are equal.

  A resolution tells a listed line from a line that takes the target of the next
  listed one, so the resolutions of all lines give back the table. Two lists of
  pairs therefore make one mapping exactly if the last pair of each line is the
  same in both: the order in which lines are listed does not matter, nor does a
  pair that a later one of its line replaces.

  Main statement: `ofFlat_extensional`.
-/

import Reline.Proofs.LineMapping

namespace Reline.LineMapping

variable {m m' : LineMapping} {pairs pairs' : List (UInt16 × UInt16)}

/-! ## Mappings and their resolutions -/

/-- A line is listed with a target exactly if it resolves to it as a listed line. -/
theorem resolve_eq_exact_iff {line target : UInt16} :
    m.resolve line = .exact target ↔ m.table.get? line = some target := by
  rw [resolve]
  constructor
  · intro h
    split at h
    case h_1 found hget =>
      cases h
      exact hget
    case h_2 =>
      split at h <;> cases h
  · intro h
    rw [h]

/-- A mapping is determined by its resolutions. -/
theorem eq_of_resolve (h : ∀ line, m.resolve line = m'.resolve line) : m = m' := by
  have htable : m.table = m'.table := by
    apply OrderedTable.eq_of_get?
    intro line target
    rw [← resolve_eq_exact_iff, ← resolve_eq_exact_iff, h]
  cases m
  cases m'
  cases htable
  rfl

theorem eq_iff_resolve : m = m' ↔ ∀ line, m.resolve line = m'.resolve line := by
  constructor
  · rintro rfl line
    rfl
  · exact eq_of_resolve

/-! ## Mappings of pairs -/

/-- Two lists of pairs make one mapping exactly if the last pairs of all lines are the same. -/
theorem ofPairs_eq_iff :
    ofPairs pairs = ofPairs pairs'
      ↔ ∀ line target, LastTarget pairs line target ↔ LastTarget pairs' line target := by
  constructor
  · intro h line target
    rw [← get?_ofPairs_iff, h, get?_ofPairs_iff]
  · intro h
    have htable : (ofPairs pairs).table = (ofPairs pairs').table := by
      apply OrderedTable.eq_of_get?
      intro line target
      rw [get?_ofPairs_iff, get?_ofPairs_iff, h]
    exact congrArg LineMapping.mk htable

/-- The last target of a line is that of the last pair among those with the line. -/
theorem lastTarget_iff_filter {line target : UInt16} :
    LastTarget pairs line target
      ↔ (pairs.filter fun pair => pair.1 = line).getLast? = some (line, target) := by
  constructor
  · rintro ⟨front, back, rfl, hback⟩
    have hnone : (back.filter fun pair => pair.1 = line) = [] := by
      rw [List.filter_eq_nil_iff]
      intro pair hpair
      simpa using hback pair hpair
    rw [List.filter_append, List.filter_cons_of_pos (by simp), hnone, List.getLast?_concat]
  · intro h
    obtain ⟨front, hfilter⟩ := List.getLast?_eq_some_iff.1 h
    -- the pairs behind the last one with the line have other lines
    obtain ⟨before, after, rfl, -, hafter⟩ := List.filter_eq_append_iff.1 hfilter
    obtain ⟨between, behind, rfl, -, -, hbehind⟩ := List.filter_eq_cons_iff.1 hafter
    refine ⟨before ++ between, behind, by simp, ?_⟩
    intro pair hpair
    have hother := List.filter_eq_nil_iff.1 hbehind pair hpair
    simpa using hother

/-- Pairs may change places if those of each line stay in order. -/
theorem ofPairs_eq_of_filter
    (h : ∀ line, (pairs.filter fun pair => pair.1 = line)
      = pairs'.filter fun pair => pair.1 = line) : ofPairs pairs = ofPairs pairs' := by
  rw [ofPairs_eq_iff]
  intro line target
  rw [lastTarget_iff_filter, lastTarget_iff_filter, h]

/-- A pair goes without trace if a later one has its line. -/
theorem ofPairs_drop {front back : List (UInt16 × UInt16)} {pair : UInt16 × UInt16}
    (h : pair.1 ∈ back.map Prod.fst) :
    ofPairs (front ++ pair :: back) = ofPairs (front ++ back) := by
  rw [ofPairs_eq_iff]
  intro line target
  rw [lastTarget_iff_filter, lastTarget_iff_filter, List.filter_append, List.filter_append]
  by_cases hline : pair.1 = line
  · -- the later pair is still there, so it is the last of some that are left
    obtain ⟨later, hlater, hsame⟩ := List.mem_map.1 h
    have hne : (back.filter fun pair => pair.1 = line) ≠ [] := by
      refine List.ne_nil_of_mem (List.mem_filter.2 ⟨hlater, ?_⟩)
      simp [hsame, hline]
    rw [List.filter_cons_of_pos (by simpa using hline),
      List.getLast?_append_of_ne_nil _ (List.cons_ne_nil _ _), List.getLast?_cons_of_ne_nil hne,
      List.getLast?_append_of_ne_nil _ hne]
  · rw [List.filter_cons_of_neg (by simpa using hline)]

/-! ## Flat lists -/

/-- Two flat lists that spell pairs of lines make one mapping exactly if all lines resolve alike in
both, and exactly if each line has the same last target in both or none in either. Each makes the
mapping of the pairs that it spells. Pairs may change places if those of each line stay in order,
and a pair may go if a later one has its line. -/
theorem ofFlat_extensional {flat flat' : List Int} (heven : flat.length % 2 = 0)
    (hlines : ∀ value ∈ flat, IsLine value) (heven' : flat'.length % 2 = 0)
    (hlines' : ∀ value ∈ flat', IsLine value) :
    ∃ pairs pairs' m m', flatten pairs = flat ∧ flatten pairs' = flat'
      ∧ ofFlat flat = .ok m ∧ ofFlat flat' = .ok m' ∧ m = ofPairs pairs ∧ m' = ofPairs pairs'
      ∧ (m = m' ↔ ∀ line, m.resolve line = m'.resolve line)
      ∧ (m = m' ↔ ∀ line target, LastTarget pairs line target ↔ LastTarget pairs' line target)
      ∧ ((∀ line, (pairs.filter fun pair => pair.1 = line)
        = pairs'.filter fun pair => pair.1 = line) → m = m')
      ∧ (∀ front pair back, pairs = front ++ pair :: back → pairs' = front ++ back →
        pair.1 ∈ back.map Prod.fst → m = m') := by
  obtain ⟨pairs, hflatten, hok⟩ := exists_ofFlat_eq_ok heven hlines
  obtain ⟨pairs', hflatten', hok'⟩ := exists_ofFlat_eq_ok heven' hlines'
  refine ⟨pairs, pairs', _, _, hflatten, hflatten', hok, hok', rfl, rfl, eq_iff_resolve,
    ofPairs_eq_iff, ofPairs_eq_of_filter, ?_⟩
  rintro front pair back rfl rfl hlater
  exact ofPairs_drop hlater

/-- The first pair of the line 20 is replaced, and the line 10 may stand in front. -/
theorem ofFlat_extensional_replaced :
    ofFlat [20, 200, 10, 100, 20, 250] = ofFlat [10, 100, 20, 250] := by
  obtain ⟨pairs, pairs', m, m', hflatten, hflatten', hok, hok', -, -, -, -, -, hdrop⟩ :=
    @ofFlat_extensional [20, 200, 10, 100, 20, 250] [10, 100, 20, 250] (by decide)
      (by simp [IsLine]) (by decide) (by simp [IsLine])
  have hpairs : pairs = [(20, 200), (10, 100), (20, 250)] := flatten_injective hflatten
  have hpairs' : pairs' = [(10, 100), (20, 250)] := flatten_injective hflatten'
  have hsame : m = m' := hdrop [] (20, 200) _ hpairs hpairs' (by simp)
  rw [hok, hok', hsame]

end Reline.LineMapping
