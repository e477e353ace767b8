/-
  Reline.ClassFile.ConstantPool

  The constant pool of a class file, as far as names need it.

  Constants are numbered by slots from one on; a constant of eight bytes takes
  two slots, all others one. Only the texts are kept.
-/

import Reline.ClassFile.Cursor

namespace Reline.ClassFile

/-- A constant, by what it leaves in the pool. -/
inductive Constant where
  /-- A text, as its bytes. -/
  | text (bytes : Bytes)
  /-- Any other constant of one slot. -/
  | single
  /-- A constant of two slots. -/
  | double
deriving DecidableEq, Repr

/-- The slots of the constants read so far; slot zero is never used. -/
structure ConstantPool where
  /-- The text at each slot that holds one. -/
  slots : Array (Option Bytes)

namespace ConstantPool

/-- The pool before its first constant. -/
def empty : ConstantPool := ⟨#[none]⟩

/-- The number of the next free slot. -/
def next (pool : ConstantPool) : Nat := pool.slots.size

/-- The pool with one more constant. -/
def push (pool : ConstantPool) : Constant → ConstantPool
  | .text bytes => ⟨pool.slots.push (some bytes)⟩
  | .single => ⟨pool.slots.push none⟩
  | .double => ⟨(pool.slots.push none).push none⟩

theorem next_lt_next_push (pool : ConstantPool) (constant : Constant) :
    pool.next < (pool.push constant).next := by
  cases constant <;> simp only [next, push, Array.size_push] <;> omega

/-- The text at a slot, if that slot holds one. -/
def text? (pool : ConstantPool) (index : UInt16) : Option Bytes :=
  (pool.slots[index.toNat]?).join

/-! ## Reading -/

/-- The constant at the slot numbered `index`. -/
def readConstant (index : Nat) : Reader Constant := do
  let tag ← Reader.u1
  match tag with
  | 1 => return .text (← Reader.take (← Reader.u2).toNat)
  | 7 | 8 | 16 | 19 | 20 => Reader.skip 2; return .single
  | 15 => Reader.skip 3; return .single
  | 3 | 4 | 9 | 10 | 11 | 12 | 17 | 18 => Reader.skip 4; return .single
  | 5 | 6 => Reader.skip 8; return .double
  | _ => throw (.badConstantTag tag index)

/-- Reads constants until the next slot is numbered `count` or more. -/
def readFrom (count : Nat) (pool : ConstantPool) : Reader ConstantPool :=
  if pool.next < count then do
    let constant ← readConstant pool.next
    readFrom count (pool.push constant)
  else
    pure pool
termination_by count - pool.next
decreasing_by
  have := pool.next_lt_next_push constant
  omega

/-- The pool: the number of its slots, then its constants. -/
def read : Reader ConstantPool := do
  readFrom (← Reader.u2).toNat empty

/-- The text at a slot; a fault if the slot holds none. -/
def text (pool : ConstantPool) (index : UInt16) : Reader Bytes :=
  match pool.text? index with
  | some bytes => pure bytes
  | none => throw (.notUtf8 index)

end ConstantPool

end Reline.ClassFile
