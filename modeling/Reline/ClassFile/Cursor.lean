/-
  Reline.ClassFile.Cursor

  A reading position in a class file, and the readers that advance it.

  The cursor knows how many bytes are left, so that a declared length of four
  gigabytes is refused without a walk over the rest. A reader either fails with
  the first fault or gives a value and the cursor behind it; no reader moves
  backwards.
-/

import Reline.ClassFile.Error

namespace Reline.ClassFile

/-- A position in a byte sequence, with the bytes that follow it. -/
structure Cursor where
  /-- How many bytes stand before the cursor. -/
  position : Nat
  /-- The bytes that follow. -/
  rest : Bytes
  /-- How many bytes follow. -/
  remaining : Nat
  /-- The count is the length of the rest. -/
  length_rest : rest.length = remaining

namespace Cursor

/-- The cursor before the first byte. -/
def start (bytes : Bytes) : Cursor := ⟨0, bytes, bytes.length, rfl⟩

/-- The cursor `n` bytes further on. -/
def advance (cursor : Cursor) (n : Nat) : Cursor :=
  ⟨cursor.position + n, cursor.rest.drop n, cursor.remaining - n,
    by rw [List.length_drop, cursor.length_rest]⟩

end Cursor

/-- A computation that reads from a cursor. -/
abbrev Reader := StateT Cursor (Except FormatError)

namespace Reader

/-! ## Primitive readers -/

/-- The next `n` bytes. -/
def take (n : Nat) : Reader Bytes := fun cursor =>
  if cursor.remaining < n then
    .error (.truncated cursor.position (n - cursor.remaining))
  else
    .ok (cursor.rest.take n, cursor.advance n)

/-- Passes over `n` bytes. -/
def skip (n : Nat) : Reader Unit := fun cursor =>
  if cursor.remaining < n then
    .error (.truncated cursor.position (n - cursor.remaining))
  else
    .ok ((), cursor.advance n)

/-- An unsigned byte. -/
def u1 : Reader UInt8 := do
  return UInt8.ofNat (Bytes.toNatBE (← take 1))

/-- An unsigned word of two bytes. -/
def u2 : Reader UInt16 := do
  return UInt16.ofNat (Bytes.toNatBE (← take 2))

/-- An unsigned word of four bytes, as a number. -/
def u4 : Reader Nat := do
  return Bytes.toNatBE (← take 4)

/-- How many bytes have been read. -/
def position : Reader Nat := do
  return (← get).position

/-! ## Repetition -/

/-- Runs a step `count` times, each on the result of the one before. -/
def iterate {α : Type} (step : α → Reader α) : (count : Nat) → α → Reader α
  | 0, value => pure value
  | count + 1, value => do
    iterate step count (← step value)

end Reader

end Reline.ClassFile
