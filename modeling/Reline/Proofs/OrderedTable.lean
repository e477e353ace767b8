/-
  Reline.Proofs.OrderedTable

  Look-up in ordered tables after insertion and removal.

  A table is determined by its look-ups: they say what insertion and removal do,
  and because the keys are distinct a pair is listed exactly if its key is
  looked up with its value. Because they ascend, the first pair above a key is
  the one of the least key above it.
-/

import Reline.OrderedTable

namespace Reline.OrderedTable

variable {κ ν : Type} [LT κ] [DecidableEq κ] [BEq κ] [LawfulBEq κ]

/-! ## Look-up -/

omit [LT κ] in
theorem lookup_cons_eq (k key : κ) (value : ν) (rest : List (κ × ν)) :
    ((key, value) :: rest).lookup k = if k = key then some value else rest.lookup k := by
  rw [List.lookup_cons]
  by_cases hk : k = key
  · rw [if_pos hk, hk, BEq.rfl]
  · rw [if_neg hk, beq_false_of_ne hk]

omit [LT κ] in
theorem lookup_filter_ne (key k : κ) (list : List (κ × ν)) :
    (list.filter fun pair => pair.1 ≠ key).lookup k = if k = key then none else list.lookup k := by
  induction list with
  | nil =>
    split <;> rfl
  | cons head rest ih =>
    obtain ⟨k₀, v₀⟩ := head
    rw [lookup_cons_eq]
    -- the first pair goes if its key is the one that is taken out
    by_cases hhead : k₀ = key
    · subst hhead
      rw [List.filter_cons_of_neg (by simp), ih]
      by_cases hk : k = k₀
      · rw [if_pos hk, if_pos hk]
      · rw [if_neg hk, if_neg hk, if_neg hk]
    · rw [List.filter_cons_of_pos (by simpa using hhead), lookup_cons_eq, ih]
      by_cases hk : k = k₀
      · have hne : k ≠ key := hk ▸ hhead
        rw [if_pos hk, if_neg hne, if_pos hk]
      · rw [if_neg hk, if_neg hk]

omit [DecidableEq κ] [LawfulBEq κ] in
@[simp] theorem get?_empty (key : κ) : (∅ : OrderedTable κ ν).get? key = none := rfl

/-- Removal takes away the pair at its key and no other. -/
theorem get?_erase (table : OrderedTable κ ν) (key k : κ) :
    (table.erase key).get? k = if k = key then none else table.get? k :=
  lookup_filter_ne key k table.entries

omit [DecidableEq κ] [LawfulBEq κ] in
theorem isEmpty_eq_false_of_get? {table : OrderedTable κ ν} {key : κ} {value : ν}
    (h : table.get? key = some value) : table.isEmpty = false := by
  obtain ⟨list, hascending⟩ := table
  cases list with
  | nil => contradiction
  | cons head rest => rfl

variable [LE κ] [Std.LawfulOrderLT κ]

/-- A pair is listed exactly if its key is looked up with its value. -/
theorem mem_entries_iff {table : OrderedTable κ ν} {key : κ} {value : ν} :
    (key, value) ∈ table.entries ↔ table.get? key = some value := by
  obtain ⟨list, hascending⟩ := table
  show (key, value) ∈ list ↔ list.lookup key = some value
  induction list with
  | nil => simp
  | cons head rest ih =>
    obtain ⟨k₀, v₀⟩ := head
    obtain ⟨hbelow, hrest⟩ := List.pairwise_cons.1 hascending
    rw [List.mem_cons, lookup_cons_eq, Prod.mk.injEq]
    by_cases hk : key = k₀
    · -- no later pair has the key of the first one
      have hnot : (key, value) ∉ rest := by
        intro hlater
        exact Std.lt_irrefl (hk ▸ hbelow _ hlater)
      rw [if_pos hk, Option.some.injEq]
      constructor
      · rintro (⟨-, hvalue⟩ | hlater)
        · exact hvalue.symm
        · exact absurd hlater hnot
      · intro hvalue
        exact .inl ⟨hk, hvalue.symm⟩
    · rw [if_neg hk, ih hrest]
      constructor
      · rintro (⟨hkey, -⟩ | hlater)
        · exact absurd hkey hk
        · exact hlater
      · exact .inr

variable [Std.IsLinearOrder κ]

/-- A table is determined by its look-ups. -/
theorem eq_of_get? {table other : OrderedTable κ ν}
    (h : ∀ key value, table.get? key = some value ↔ other.get? key = some value) :
    table = other := by
  have hmem (pair : κ × ν) : pair ∈ table.entries ↔ pair ∈ other.entries := by
    obtain ⟨key, value⟩ := pair
    rw [mem_entries_iff, mem_entries_iff, h]
  have hnodup (table : OrderedTable κ ν) : table.entries.Nodup := by
    refine table.ascending.imp fun {a b} hlt heq => ?_
    subst heq
    exact Std.lt_irrefl hlt
  have hperm := (List.perm_ext_iff_of_nodup (hnodup table) (hnodup other)).2 hmem
  have hentries : table.entries = other.entries := by
    refine hperm.eq_of_pairwise (fun a b _ _ hab hba => ?_) table.ascending other.ascending
    exact absurd (Std.lt_trans hab hba) Std.lt_irrefl
  cases table
  cases other
  cases hentries
  rfl

/-! ## Insertion -/

theorem lookup_insertInto [DecidableLT κ] (key k : κ) (value : ν) (list : List (κ × ν)) :
    (insertInto key value list).lookup k = if k = key then some value else list.lookup k := by
  induction list with
  | nil => rw [insertInto, lookup_cons_eq]
  | cons head rest ih =>
    obtain ⟨k₀, v₀⟩ := head
    rw [insertInto]
    -- the new key is below the first one, above it, or the same
    split
    case isTrue hbelow => rw [lookup_cons_eq]
    case isFalse hnotBelow =>
      split
      case isTrue habove =>
        rw [lookup_cons_eq, lookup_cons_eq, ih]
        by_cases hk : k = k₀
        · have hne : k ≠ key := fun heq => Std.lt_irrefl (hk.symm.trans heq ▸ habove)
          rw [if_pos hk, if_neg hne, if_pos hk]
        · rw [if_neg hk, if_neg hk]
      case isFalse hnotAbove =>
        have hsame : key = k₀ := by
          rcases Std.lt_trichotomy key k₀ with h | h | h
          · exact absurd h hnotBelow
          · exact h
          · exact absurd h hnotAbove
        rw [lookup_cons_eq, lookup_cons_eq, ← hsame]
        by_cases hk : k = key
        · rw [if_pos hk, if_pos hk]
        · rw [if_neg hk, if_neg hk, if_neg hk]

/-- Insertion changes the value at its key and no other. -/
theorem get?_insert [DecidableLT κ] (table : OrderedTable κ ν) (key k : κ) (value : ν) :
    (table.insert key value).get? k = if k = key then some value else table.get? k :=
  lookup_insertInto key k value table.entries

/-- Insertions in turn leave the last value of each key, and else what was there before. -/
theorem get?_foldl_insert [DecidableLT κ] (pairs : List (κ × ν)) (table : OrderedTable κ ν)
    (key : κ) :
    (pairs.foldl (fun table pair => table.insert pair.1 pair.2) table).get? key
      = (pairs.reverse.lookup key).or (table.get? key) := by
  induction pairs generalizing table with
  | nil => rfl
  | cons pair pairs ih =>
    rw [List.foldl_cons, ih, List.reverse_cons, List.lookup_append, Option.or_assoc,
      lookup_cons_eq, get?_insert]
    congr 1
    split <;> rfl

/-- Of several pairs with one key the last counts. -/
theorem get?_ofList [DecidableLT κ] (pairs : List (κ × ν)) (key : κ) :
    (ofList pairs).get? key = pairs.reverse.lookup key := by
  rw [ofList, get?_foldl_insert]
  exact Option.or_none

/-! ## Looking above a key -/

omit [Std.IsLinearOrder κ] in
theorem isSome_get?_iff {table : OrderedTable κ ν} {key : κ} :
    (table.get? key).isSome = true ↔ ∃ pair ∈ table.entries, pair.1 = key := by
  rw [Option.isSome_iff_exists]
  constructor
  · rintro ⟨value, hget⟩
    exact ⟨(key, value), mem_entries_iff.2 hget, rfl⟩
  · rintro ⟨⟨key, value⟩, hmem, rfl⟩
    exact ⟨value, mem_entries_iff.1 hmem⟩

omit [Std.IsLinearOrder κ] in
/-- Nothing is found above a key exactly if no key is above it. -/
theorem above?_eq_none_iff [DecidableLT κ] {table : OrderedTable κ ν} {key : κ} :
    table.above? key = none ↔ ∀ other, (table.get? other).isSome = true → ¬ key < other := by
  simp only [above?, List.find?_eq_none, decide_eq_true_eq, isSome_get?_iff]
  constructor
  · rintro h other ⟨pair, hpair, rfl⟩
    exact h pair hpair
  · intro h pair hpair
    exact h pair.1 ⟨pair, hpair, rfl⟩

/-- What is found above a key is the pair of the least key above it. -/
theorem above?_eq_some_iff [DecidableLT κ] {table : OrderedTable κ ν} {key next : κ} {value : ν} :
    table.above? key = some (next, value)
      ↔ key < next ∧ table.get? next = some value
        ∧ ∀ other, (table.get? other).isSome = true → key < other → ¬ other < next := by
  rw [above?, List.find?_eq_some_iff_append]
  simp only [decide_eq_true_eq, Bool.not_eq_true', decide_eq_false_iff_not]
  constructor
  · rintro ⟨hnext, front, back, hentries, hfront⟩
    have hascending := table.ascending
    rw [hentries, List.pairwise_append, List.pairwise_cons] at hascending
    obtain ⟨-, ⟨hback, -⟩, -⟩ := hascending
    have hmem : (next, value) ∈ table.entries := by
      rw [hentries]
      exact List.mem_append_right _ (List.mem_cons_self ..)
    refine ⟨hnext, mem_entries_iff.1 hmem, fun other hother habove hbelow => ?_⟩
    obtain ⟨pair, hpair, rfl⟩ := isSome_get?_iff.1 hother
    rw [hentries] at hpair
    -- pairs in front are not above the key, those behind are above the one that is found
    rcases List.mem_append.1 hpair with hpair | hpair
    · exact hfront pair hpair habove
    · rcases List.mem_cons.1 hpair with rfl | hpair
      · exact Std.lt_irrefl hbelow
      · exact Std.lt_irrefl (Std.lt_trans (hback pair hpair) hbelow)
  · rintro ⟨hnext, hget, hleast⟩
    obtain ⟨front, back, hentries⟩ := List.append_of_mem (mem_entries_iff.2 hget)
    have hascending := table.ascending
    rw [hentries, List.pairwise_append] at hascending
    obtain ⟨-, -, hfront⟩ := hascending
    refine ⟨hnext, front, back, hentries, fun pair hpair habove => ?_⟩
    have hother : (table.get? pair.1).isSome = true := by
      rw [isSome_get?_iff, hentries]
      exact ⟨pair, List.mem_append_left _ hpair, rfl⟩
    exact hleast pair.1 hother habove (hfront pair hpair _ (List.mem_cons_self ..))

end Reline.OrderedTable
