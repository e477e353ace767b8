/-
  Reline.OrderedTable

  Finite tables kept in strictly ascending order of their keys.

  The order is part of the type, so two tables are equal exactly when they
  list the same pairs, and a search for the next greater key is a search for
  the first one. Line mappings are tables of lines, staged writes are tables of
  entry names.
-/

namespace Reline

/-- Pairs of a key and a value, the keys strictly ascending. -/
structure OrderedTable (κ ν : Type) [LT κ] where
  /-- The pairs in ascending order. -/
  entries : List (κ × ν)
  /-- Each key is below all later ones. -/
  ascending : entries.Pairwise fun a b => a.1 < b.1

namespace OrderedTable

variable {κ ν : Type} [LT κ]

/-- The table without pairs. -/
def empty : OrderedTable κ ν := ⟨[], .nil⟩

instance : EmptyCollection (OrderedTable κ ν) := ⟨empty⟩

instance : Inhabited (OrderedTable κ ν) := ⟨empty⟩

instance [DecidableEq κ] [DecidableEq ν] : DecidableEq (OrderedTable κ ν) := fun t u =>
  if h : t.entries = u.entries then
    isTrue (by cases t; cases u; cases h; rfl)
  else
    isFalse fun e => h (congrArg entries e)

/-- The number of pairs. -/
def size (table : OrderedTable κ ν) : Nat := table.entries.length

/-- Whether there is no pair. -/
def isEmpty (table : OrderedTable κ ν) : Bool := table.entries.isEmpty

/-! ## Look-up -/

/-- The value at a key. -/
def get? [BEq κ] (table : OrderedTable κ ν) (key : κ) : Option ν :=
  table.entries.lookup key

/-- The pair with the least key strictly above `key`. -/
def above? [DecidableLT κ] (table : OrderedTable κ ν) (key : κ) : Option (κ × ν) :=
  table.entries.find? fun pair => key < pair.1

/-- The table without the pair at `key`. -/
def erase [DecidableEq κ] (table : OrderedTable κ ν) (key : κ) : OrderedTable κ ν :=
  ⟨table.entries.filter fun pair => pair.1 ≠ key, table.ascending.filter _⟩

/-! ## Insertion -/

variable [DecidableLT κ]

/-- Puts a pair into an ascending list at its place, or over the pair with that key. -/
def insertInto (key : κ) (value : ν) : List (κ × ν) → List (κ × ν)
  | [] => [(key, value)]
  | (k, v) :: rest =>
    if key < k then (key, value) :: (k, v) :: rest
    else if k < key then (k, v) :: insertInto key value rest
    else (key, value) :: rest

theorem eq_or_mem_of_mem_insertInto {key : κ} {value : ν} {list : List (κ × ν)} {pair : κ × ν}
    (h : pair ∈ insertInto key value list) : pair = (key, value) ∨ pair ∈ list := by
  induction list with
  | nil => simpa [insertInto] using h
  | cons head rest ih =>
    obtain ⟨k, v⟩ := head
    simp only [insertInto] at h
    split at h
    · simpa using h
    · split at h
      · rcases List.mem_cons.1 h with h | h
        · exact .inr (by simp [h])
        · rcases ih h with h | h
          · exact .inl h
          · exact .inr (List.mem_cons_of_mem _ h)
      · rcases List.mem_cons.1 h with h | h
        · exact .inl h
        · exact .inr (List.mem_cons_of_mem _ h)

variable [LE κ] [Std.IsLinearOrder κ] [Std.LawfulOrderLT κ]

/-- Insertion keeps the keys ascending. -/
theorem ascending_insertInto (key : κ) (value : ν) {list : List (κ × ν)}
    (h : list.Pairwise fun a b => a.1 < b.1) :
    (insertInto key value list).Pairwise fun a b => a.1 < b.1 := by
  induction list with
  | nil => simp [insertInto]
  | cons head rest ih =>
    obtain ⟨k, v⟩ := head
    obtain ⟨hk, hrest⟩ := List.pairwise_cons.1 h
    simp only [insertInto]
    split
    next below =>
      refine List.pairwise_cons.2 ⟨fun pair mem => ?_, h⟩
      rcases List.mem_cons.1 mem with rfl | mem
      · exact below
      · exact Std.lt_trans below (hk pair mem)
    next notBelow =>
      split
      next above =>
        refine List.pairwise_cons.2 ⟨fun pair mem => ?_, ih hrest⟩
        rcases eq_or_mem_of_mem_insertInto mem with rfl | mem
        · exact above
        · exact hk pair mem
      next notAbove =>
        have same : key = k := by
          rcases Std.lt_trichotomy key k with h | h | h
          · exact absurd h notBelow
          · exact h
          · exact absurd h notAbove
        exact List.pairwise_cons.2 ⟨fun pair mem => same ▸ hk pair mem, hrest⟩

/-- The table with `value` at `key`; a value that was there before is replaced. -/
def insert (table : OrderedTable κ ν) (key : κ) (value : ν) : OrderedTable κ ν :=
  ⟨insertInto key value table.entries, ascending_insertInto key value table.ascending⟩

/-- The table of the pairs of a list; of several with one key the last counts. -/
def ofList (pairs : List (κ × ν)) : OrderedTable κ ν :=
  pairs.foldl (fun table pair => table.insert pair.1 pair.2) empty

end OrderedTable

end Reline
