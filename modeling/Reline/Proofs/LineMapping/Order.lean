/-
  Reline.Proofs.LineMapping.Order

  When a line mapping keeps lines in order.

  A line up to the greatest listed one takes the target of the least listed line
  that is not below it, so on these lines the mapping is as ordered as its
  targets are. Lines past the greatest listed one stay. Order is lost between
  the two regions only if the target of the greatest listed line lies more than
  one line past it.

  Main statement: `mapLine_mono_iff`.
-/

import Reline.Proofs.SuccessiveRemaps

namespace Reline.LineMapping

/-- Whether a pair has the greatest listed line. -/
def IsLast (m : LineMapping) (pair : UInt16 × UInt16) : Prop :=
  pair ∈ m.table.entries ∧ ∀ other ∈ m.table.entries, other.1 ≤ pair.1

/-- Whether greater listed lines have no lesser targets. -/
def TargetsAscend (m : LineMapping) : Prop :=
  ∀ pair ∈ m.table.entries, ∀ other ∈ m.table.entries, pair.1 ≤ other.1 → pair.2 ≤ other.2

/-- Whether a line lies past all listed ones. -/
def IsPast (m : LineMapping) (line : UInt16) : Prop :=
  ∀ pair ∈ m.table.entries, pair.1 < line

variable {m : LineMapping}

/-! ## The pair that decides -/

/-- Whether a pair has the least listed line that is not below a line. -/
def Decides (m : LineMapping) (line : UInt16) (pair : UInt16 × UInt16) : Prop :=
  pair ∈ m.table.entries ∧ line ≤ pair.1 ∧ ∀ other ∈ m.table.entries, line ≤ other.1 →
    pair.1 ≤ other.1

/-- A listed line decides for itself. -/
theorem decides_of_mem {pair : UInt16 × UInt16} (h : pair ∈ m.table.entries) :
    m.Decides pair.1 pair :=
  ⟨h, UInt16.le_refl _, fun _ _ hle => hle⟩

/-- A line goes to the target of the pair that decides. -/
theorem mapLine_of_decides {line : UInt16} {pair : UInt16 × UInt16} (h : m.Decides line pair) :
    m.mapLine line = pair.2 := by
  obtain ⟨hmem, hle, hleast⟩ := h
  rw [mapLine, resolve]
  split
  case h_1 target hget =>
    -- the line is listed, so the pair that decides is its own
    have hline : (line, target) ∈ m.table.entries := OrderedTable.mem_entries_iff.2 hget
    have hsame : line = pair.1 := UInt16.le_antisymm hle (hleast _ hline (UInt16.le_refl _))
    have hpair : m.table.get? line = some pair.2 := by
      rw [hsame]
      exact OrderedTable.mem_entries_iff.1 hmem
    rw [hget] at hpair
    exact Option.some.inj hpair
  case h_2 hget =>
    have hne : line ≠ pair.1 := by
      intro heq
      have hpair : m.table.get? line = some pair.2 := by
        rw [heq]
        exact OrderedTable.mem_entries_iff.1 hmem
      rw [hget] at hpair
      cases hpair
    have hlt : line < pair.1 := UInt16.lt_of_le_of_ne hle hne
    have habove : m.table.above? line = some (pair.1, pair.2) := by
      refine OrderedTable.above?_eq_some_iff.2 ⟨hlt, OrderedTable.mem_entries_iff.1 hmem, ?_⟩
      intro other hother hbelow
      obtain ⟨found, hfound, rfl⟩ := OrderedTable.isSome_get?_iff.1 hother
      exact UInt16.not_lt.2 (hleast found hfound (UInt16.le_of_lt hbelow))
    rw [habove]
    rfl

/-- A line that lies past all listed ones stays. -/
theorem mapLine_of_isPast {line : UInt16} (h : m.IsPast line) : m.mapLine line = line := by
  rw [mapLine, resolve]
  have hget : m.table.get? line = none := by
    rw [← Option.not_isSome_iff_eq_none, OrderedTable.isSome_get?_iff]
    rintro ⟨pair, hpair, rfl⟩
    exact UInt16.lt_irrefl _ (h pair hpair)
  have habove : m.table.above? line = none := by
    refine OrderedTable.above?_eq_none_iff.2 fun other hother => ?_
    obtain ⟨pair, hpair, rfl⟩ := OrderedTable.isSome_get?_iff.1 hother
    exact UInt16.lt_asymm (h pair hpair)
  rw [hget, habove]
  rfl

/-- A line lies past all listed ones, or some pair decides for it. -/
theorem isPast_or_exists_decides (m : LineMapping) (line : UInt16) :
    m.IsPast line ∨ ∃ pair, m.Decides line pair := by
  cases hfind : m.table.entries.find? fun pair => line ≤ pair.1 with
  | none =>
    refine .inl fun pair hpair => ?_
    have hnot := List.find?_eq_none.1 hfind pair hpair
    exact UInt16.not_le.1 (by simpa using hnot)
  | some pair =>
    -- the pairs ascend, so the first one that is not below the line is the least
    obtain ⟨hle, front, back, hentries, hfront⟩ := List.find?_eq_some_iff_append.1 hfind
    have hascending := m.table.ascending
    rw [hentries, List.pairwise_append, List.pairwise_cons] at hascending
    obtain ⟨-, ⟨hback, -⟩, -⟩ := hascending
    refine .inr ⟨pair, ?_, by simpa using hle, ?_⟩
    · rw [hentries]
      exact List.mem_append_right _ (List.mem_cons_self ..)
    · intro other hother hline
      rw [hentries, List.mem_append, List.mem_cons] at hother
      rcases hother with hother | rfl | hother
      · have hnot := hfront other hother
        simp [hline] at hnot
      · exact UInt16.le_refl _
      · exact UInt16.le_of_lt (hback other hother)

/-- A mapping that lists a line has a greatest one. -/
theorem exists_isLast {pair : UInt16 × UInt16} (h : pair ∈ m.table.entries) :
    ∃ last, m.IsLast last := by
  obtain ⟨front, last, hentries⟩ := List.eq_nil_or_concat m.table.entries |>.resolve_left
    (List.ne_nil_of_mem h)
  have hascending := m.table.ascending
  rw [hentries, List.concat_eq_append, List.pairwise_append] at hascending
  obtain ⟨-, -, hfront⟩ := hascending
  refine ⟨last, ?_, ?_⟩
  · rw [hentries, List.concat_eq_append]
    exact List.mem_append_right _ (List.mem_singleton_self _)
  · intro other hother
    rw [hentries, List.concat_eq_append, List.mem_append, List.mem_singleton] at hother
    rcases hother with hother | rfl
    · exact UInt16.le_of_lt (hfront other hother last (List.mem_singleton_self _))
    · exact UInt16.le_refl _

/-! ## Order -/

/-- Lines that are not past the mapping keep their order. -/
theorem mapLine_le_of_not_isPast (h : m.TargetsAscend) {line line' : UInt16} (hle : line ≤ line')
    (hlisted : ¬ m.IsPast line') : m.mapLine line ≤ m.mapLine line' := by
  obtain ⟨pair', hdecides'⟩ := (isPast_or_exists_decides m line').resolve_left hlisted
  have hreach : line ≤ pair'.1 := UInt16.le_trans hle hdecides'.2.1
  have hnotPast : ¬ m.IsPast line := by
    intro hpast
    exact UInt16.not_lt.2 hreach (hpast pair' hdecides'.1)
  obtain ⟨pair, hdecides⟩ := (isPast_or_exists_decides m line).resolve_left hnotPast
  rw [mapLine_of_decides hdecides, mapLine_of_decides hdecides']
  -- the pair of the lesser line is the least of more pairs
  exact h pair hdecides.1 pair' hdecides'.1 (hdecides.2.2 pair' hdecides'.1 hreach)

/-- What the target of the greatest listed line may be for the lines past it to stay behind it. -/
def StaysBelow (m : LineMapping) : Prop :=
  ∀ last, m.IsLast last → last.1 = 65535 ∨ last.2.toNat ≤ last.1.toNat + 1

theorem mapLine_le (h : m.TargetsAscend) (hlast : m.StaysBelow) {line line' : UInt16}
    (hle : line ≤ line') : m.mapLine line ≤ m.mapLine line' := by
  by_cases hpast' : m.IsPast line'
  · rcases isPast_or_exists_decides m line with hpast | ⟨pair, hdecides⟩
    · rw [mapLine_of_isPast hpast, mapLine_of_isPast hpast']
      exact hle
    · -- the greater line stays behind the greatest listed one, whose target is the greatest
      obtain ⟨last, hisLast⟩ := exists_isLast hdecides.1
      have htarget : pair.2 ≤ last.2 := h pair hdecides.1 last hisLast.1 (hisLast.2 pair hdecides.1)
      have hbehind : last.1 < line' := hpast' last hisLast.1
      rw [mapLine_of_decides hdecides, mapLine_of_isPast hpast', UInt16.le_iff_toNat_le]
      rw [UInt16.le_iff_toNat_le] at htarget
      rw [UInt16.lt_iff_toNat_lt] at hbehind
      have hbound : line'.toNat < 65536 := line'.toNat_lt
      rcases hlast last hisLast with hmax | hnear
      · have hmaxNat : last.1.toNat = 65535 := by rw [hmax]; rfl
        omega
      · omega
  · exact mapLine_le_of_not_isPast h hle hpast'

theorem targetsAscend_of_mono (h : ∀ line line', line ≤ line' → m.mapLine line ≤ m.mapLine line') :
    m.TargetsAscend := by
  intro pair hpair other hother hle
  have hmapped := h pair.1 other.1 hle
  rwa [mapLine_of_decides (decides_of_mem hpair), mapLine_of_decides (decides_of_mem hother)]
    at hmapped

theorem staysBelow_of_mono (h : ∀ line line', line ≤ line' → m.mapLine line ≤ m.mapLine line') :
    m.StaysBelow := by
  intro last hisLast
  by_cases hmax : last.1 = 65535
  · exact .inl hmax
  · -- the line behind the greatest listed one stays, and its place bounds the target
    have hbound : last.1.toNat < 65536 := last.1.toNat_lt
    have hne : last.1.toNat ≠ 65535 := by
      intro heq
      exact hmax (UInt16.toNat_inj.1 heq)
    have hnext : (last.1 + 1).toNat = last.1.toNat + 1 := by
      rw [UInt16.toNat_add, UInt16.toNat_one]
      omega
    have hlt : last.1 < last.1 + 1 := by
      rw [UInt16.lt_iff_toNat_lt, hnext]
      omega
    have hpast : m.IsPast (last.1 + 1) := by
      intro pair hpair
      exact UInt16.lt_of_le_of_lt (hisLast.2 pair hpair) hlt
    have hmapped := h last.1 (last.1 + 1) (UInt16.le_of_lt hlt)
    rw [mapLine_of_decides (decides_of_mem hisLast.1), mapLine_of_isPast hpast,
      UInt16.le_iff_toNat_le, hnext] at hmapped
    exact .inr hmapped

open ClassFile

/-- In a remapped class file, entries whose lines were in order and not past the mapping are still
in order. -/
theorem exists_entries_le (h : m.TargetsAscend) {bytes : Bytes} {c : ClassFile}
    (hparse : parse bytes = .ok c) :
    ∃ out report d, remapClass m bytes = .ok (out, report) ∧ parse out = .ok d
      ∧ d.entries.length = c.entries.length
      ∧ ∀ (i j : Nat) (e e' f f' : LineEntry), c.entries[i]? = some e →
        c.entries[j]? = some e' → d.entries[i]? = some f → d.entries[j]? = some f' →
          e.line ≤ e'.line → ¬ m.IsPast e'.line → f.line ≤ f'.line := by
  have hentries : (⟨(c.remap m).toBytes, (c.remap m).methods⟩ : ClassFile).entries
      = c.entries.map (LineEntry.reline m.mapLine) := entries_remap m c
  refine ⟨_, _, _, remapClass_of_parse m hparse, parse_remap m hparse, ?_, ?_⟩
  · rw [hentries, List.length_map]
  · intro i j e e' f f' he he' hf hf' hle hlisted
    rw [hentries, List.getElem?_map, he, Option.map_some, Option.some.injEq] at hf
    rw [hentries, List.getElem?_map, he', Option.map_some, Option.some.injEq] at hf'
    subst hf hf'
    exact mapLine_le_of_not_isPast h hle hlisted

/-- A mapping keeps all lines in order exactly if its targets ascend with the listed lines and, if
any line is listed, either the greatest listed line is the greatest line, or its target is at most
the line behind it. If the targets ascend, the lines that are not past the mapping keep their order,
and so do the entries of a remapped class file whose lines were not past it. -/
theorem mapLine_mono_iff (m : LineMapping) :
    ((∀ line line', line ≤ line' → m.mapLine line ≤ m.mapLine line')
        ↔ m.TargetsAscend ∧ ∀ last, m.IsLast last →
          last.1 = 65535 ∨ last.2.toNat ≤ last.1.toNat + 1)
      ∧ (m.TargetsAscend → ∀ line line', line ≤ line' → ¬ m.IsPast line' →
        m.mapLine line ≤ m.mapLine line')
      ∧ (m.TargetsAscend → ∀ bytes c, parse bytes = .ok c →
        ∃ out report d, remapClass m bytes = .ok (out, report) ∧ parse out = .ok d
          ∧ d.entries.length = c.entries.length
          ∧ ∀ (i j : Nat) (e e' f f' : LineEntry), c.entries[i]? = some e →
            c.entries[j]? = some e' → d.entries[i]? = some f → d.entries[j]? = some f' →
              e.line ≤ e'.line → ¬ m.IsPast e'.line → f.line ≤ f'.line) := by
  refine ⟨⟨fun h => ?_, fun ⟨hascend, hstays⟩ => ?_⟩, fun h => ?_, fun h bytes c hparse => ?_⟩
  · exact ⟨targetsAscend_of_mono h, staysBelow_of_mono h⟩
  · intro line line' hle
    exact mapLine_le hascend hstays hle
  · intro line line' hle hlisted
    exact mapLine_le_of_not_isPast h hle hlisted
  · exact exists_entries_le h hparse

/-- The greatest listed line goes to the line behind it, so all lines keep their order. -/
theorem mapLine_mono_iff_nextLine :
    (ofPairs [(10, 7), (12, 13)]).TargetsAscend ∧ ∀ line line', line ≤ line' →
      (ofPairs [(10, 7), (12, 13)]).mapLine line ≤ (ofPairs [(10, 7), (12, 13)]).mapLine line' := by
  have hentries : (ofPairs [(10, 7), (12, 13)]).table.entries = [(10, 7), (12, 13)] := rfl
  have hascend : (ofPairs [(10, 7), (12, 13)]).TargetsAscend := by
    rw [TargetsAscend, hentries]
    simp
  refine ⟨hascend, (mapLine_mono_iff _).1.2 ⟨hascend, ?_⟩⟩
  intro last hisLast
  rw [IsLast, hentries] at hisLast
  obtain ⟨hmem, hgreatest⟩ := hisLast
  rcases List.mem_pair.1 hmem with rfl | rfl
  · exact absurd (hgreatest (12, 13) (by simp)) (by decide)
  · exact .inr (by decide)

/-- The greatest listed line goes past the line behind it, which stays: order is lost there. -/
example : let m := ofPairs [(10, 7), (12, 14)]
    m.mapLine 11 ≤ m.mapLine 12 ∧ ¬ m.mapLine 12 ≤ m.mapLine 13 := by decide

end Reline.LineMapping
