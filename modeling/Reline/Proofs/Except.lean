/-
  Reline.Proofs.Except

  Computations that may fail, taken apart when they succeed.
-/

import Reline.Bytes

namespace Reline

variable {ε ε' α β : Type}

/-- A computation in two steps succeeds if both do. -/
theorem bind_eq_ok_iff {first : Except ε α} {next : α → Except ε β} {b : β} :
    (first >>= next) = .ok b ↔ ∃ a, first = .ok a ∧ next a = .ok b := by
  cases first with
  | error e => exact ⟨nofun, nofun⟩
  | ok a => simp [bind, Except.bind]

theorem map_eq_ok_iff {f : α → β} {result : Except ε α} {b : β} :
    result.map f = .ok b ↔ ∃ a, result = .ok a ∧ f a = b := by
  cases result with
  | error e => exact ⟨nofun, nofun⟩
  | ok a => simp [Except.map]

theorem mapError_eq_ok_iff {f : ε → ε'} {result : Except ε α} {a : α} :
    result.mapError f = .ok a ↔ result = .ok a := by
  cases result with
  | error e => exact ⟨nofun, nofun⟩
  | ok b =>
    constructor
    · intro h
      cases h
      rfl
    · intro h
      cases h
      rfl

end Reline
