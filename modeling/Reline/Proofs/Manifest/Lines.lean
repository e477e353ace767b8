/-
  Reline.Proofs.Manifest.Lines

  The lines of a manifest.

  The loop that collects lines keeps the bytes of the current one; `Splits` says
  what the lines are without it, and lets proofs take the first line off.
-/

import Reline.Manifest

namespace Reline.Manifest

variable {bytes line rest : Bytes} {found : List Bytes}

/-- What the lines of a byte sequence are. A line feed ends a line, together with one carriage
return in front of it; what follows the last line feed is a line as it stands, unless it is empty.
-/
inductive Splits : Bytes → List Bytes → Prop where
  | nil : Splits [] []
  | last {line : Bytes} (ne_nil : line ≠ []) (unbroken : 0x0A ∉ line) : Splits line [line]
  | broken {line rest : Bytes} {found : List Bytes} (unbroken : 0x0A ∉ line)
    (rest_splits : Splits rest found) :
    Splits (line ++ 0x0A :: rest) (dropReturn line :: found)

/-! ## Carriage returns -/

@[simp] theorem dropReturn_append_return (line : Bytes) : dropReturn (line ++ [0x0D]) = line := by
  simp [dropReturn]

/-- Nothing but one carriage return is dropped. -/
theorem dropReturn_cases (line : Bytes) :
    dropReturn line = line ∨ line = dropReturn line ++ [0x0D] := by
  rw [dropReturn]
  split
  case isTrue hlast =>
    right
    obtain ⟨front, rfl⟩ := List.getLast?_eq_some_iff.1 hlast
    rw [List.dropLast_concat]
  case isFalse => exact .inl rfl

/-! ## The loop -/

theorem linesOnto_eq (before : List Bytes) (current bytes : Bytes) :
    linesOnto before current bytes = before.reverse ++ linesOnto [] current bytes := by
  induction bytes generalizing before current with
  | nil =>
    rw [linesOnto, linesOnto]
    split <;> simp
  | cons b rest ih =>
    rw [linesOnto, linesOnto]
    split
    case isTrue =>
      rw [ih (_ :: before), ih [_]]
      simp
    case isFalse => exact ih before (b :: current)

theorem linesOnto_append (h : 0x0A ∉ line) (before : List Bytes) (current rest : Bytes) :
    linesOnto before current (line ++ rest)
      = linesOnto before (line.reverse ++ current) rest := by
  induction line generalizing current with
  | nil => rfl
  | cons b line ih =>
    have hb : b ≠ 0x0A := fun heq => h (heq ▸ List.mem_cons_self ..)
    have hline : 0x0A ∉ line := fun hmem => h (List.mem_cons_of_mem _ hmem)
    rw [List.cons_append, linesOnto, if_neg hb, ih hline]
    simp

theorem lines_of_unbroken (hne : line ≠ []) (h : 0x0A ∉ line) : lines line = [line] := by
  have hloop := linesOnto_append h [] [] []
  rw [List.append_nil, List.append_nil] at hloop
  rw [lines, hloop, linesOnto, if_neg (by simpa using hne)]
  simp

/-- The first line goes up to the first line feed. -/
theorem lines_broken (h : 0x0A ∉ line) (rest : Bytes) :
    lines (line ++ 0x0A :: rest) = dropReturn line :: lines rest := by
  rw [lines, linesOnto_append h, linesOnto, if_pos rfl, linesOnto_eq, lines]
  simp

/-! ## Splitting -/

theorem exists_splits (bytes : Bytes) : ∃ found, Splits bytes found := by
  induction hlength : bytes.length using Nat.strongRecOn generalizing bytes with
  | _ length ih =>
    by_cases hbroken : 0x0A ∈ bytes
    -- what follows the first line feed is shorter, even behind an empty line
    · obtain ⟨line, rest, rfl, hline⟩ := List.eq_append_cons_of_mem hbroken
      obtain ⟨found, hfound⟩ := ih rest.length (by simp at hlength; omega) rest rfl
      exact ⟨_, .broken hline hfound⟩
    · by_cases hnil : bytes = []
      · exact ⟨[], hnil ▸ .nil⟩
      · exact ⟨_, .last hnil hbroken⟩

theorem Splits.lines_eq (h : Splits bytes found) : lines bytes = found := by
  induction h with
  | nil => rfl
  | last ne_nil unbroken => exact lines_of_unbroken ne_nil unbroken
  | broken unbroken _ ih => rw [lines_broken unbroken, ih]

theorem splits_lines (bytes : Bytes) : Splits bytes (lines bytes) := by
  obtain ⟨found, hfound⟩ := exists_splits bytes
  rwa [hfound.lines_eq]

/-- The lines behind a line feed do not depend on what stands in front. -/
theorem lines_append (front back : Bytes) :
    lines (front ++ 0x0A :: back) = lines (front ++ [0x0A]) ++ lines back := by
  obtain ⟨found, hfront⟩ := exists_splits front
  induction hfront with
  | nil =>
    have hempty : ∀ rest, lines ([] ++ 0x0A :: rest) = [] :: lines rest :=
      fun rest => lines_broken List.not_mem_nil rest
    rw [hempty, hempty]
    rfl
  | last _ unbroken =>
    rw [lines_broken unbroken, lines_broken unbroken]
    rfl
  | broken unbroken _ ih =>
    rw [List.append_assoc, List.append_assoc, List.cons_append, List.cons_append,
      lines_broken unbroken, lines_broken unbroken, ih, List.cons_append]

end Reline.Manifest
