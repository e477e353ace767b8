/-
  Reline.Proofs.ClassFile.Composition

  What readers are made of.

  The reader of a class file is put together from few kinds of steps: it takes
  bytes, looks at its position, and finds fault with bytes that it has read; at
  its end it checks that nothing is left. Whatever holds of these steps and of
  sequences of them therefore holds of the whole reader, by one induction; that
  the reader is made of such steps follows its definition once.

  Main statement: `whole_readMethods`.
-/

import Reline.Proofs.ClassFile.Grammar

namespace Reline.ClassFile

/-- Whether a fault is one of bytes that were read, and not of what follows or is missing. -/
def FormatError.IsSettled : FormatError → Prop
  | .badMagic _ | .badConstantTag .. | .notUtf8 _ | .attributeLength .. => True
  | .truncated .. | .trailingBytes _ => False

namespace Reader

/-- A reader that is put together from single steps. -/
inductive Composed : {α : Type} → Reader α → Prop where
  | pure {α : Type} (value : α) : Composed (pure value)
  | throw {α : Type} {e : FormatError} (settled : e.IsSettled) : Composed (throw e : Reader α)
  | position : Composed position
  | take (n : Nat) : Composed (take n)
  | bind {α β : Type} {reader : Reader α} {rest : α → Reader β} (first : Composed reader)
    (later : ∀ value, Composed (rest value)) : Composed (reader >>= rest)

/-- The check that ends the reader of a class file: nothing is left. -/
def checkEnd (methods : List MethodLines) : Reader (List MethodLines) := do
  let left := (← get).remaining
  if left ≠ 0 then
    throw (.trailingBytes left)
  return methods

/-- A reader of a whole file: one that is put together from single steps, and then the check. -/
inductive Whole : Reader (List MethodLines) → Prop where
  | ended (methods : List MethodLines) : Whole (checkEnd methods)
  | throw {e : FormatError} (settled : e.IsSettled) : Whole (throw e)
  | bind {α : Type} {reader : Reader α} {rest : α → Reader (List MethodLines)}
    (first : Composed reader) (later : ∀ value, Whole (rest value)) : Whole (reader >>= rest)

variable {α β : Type}

/-- What stands behind a fault is not reached. -/
theorem throw_bind (e : FormatError) (rest : α → Reader β) :
    (throw e >>= rest : Reader β) = throw e := rfl

variable {fault : Prop} [Decidable fault] {e : FormatError}

theorem composed_check {rest : Unit → Reader α} {otherwise : Reader α} (settled : e.IsSettled)
    (h : otherwise.Composed) : (if fault then throw e >>= rest else otherwise).Composed := by
  split
  · rw [throw_bind]
    exact .throw settled
  · exact h

theorem whole_check {rest : Unit → Reader (List MethodLines)}
    {otherwise : Reader (List MethodLines)} (settled : e.IsSettled) (h : otherwise.Whole) :
    (if fault then throw e >>= rest else otherwise).Whole := by
  split
  · rw [throw_bind]
    exact .throw settled
  · exact h

theorem composed_iterate {step : α → Reader α} (h : ∀ value, (step value).Composed) (count : Nat)
    (value : α) : (iterate step count value).Composed := by
  induction count generalizing value with
  | zero => exact .pure value
  | succ count ih => exact (h value).bind ih

theorem composed_skip (n : Nat) : (skip n).Composed := by
  rw [skip_eq_take]
  exact (Composed.take n).bind fun _ => .pure ()

theorem composed_u1 : u1.Composed := (Composed.take 1).bind fun _ => .pure _

theorem composed_u2 : u2.Composed := (Composed.take 2).bind fun _ => .pure _

theorem composed_u4 : u4.Composed := (Composed.take 4).bind fun _ => .pure _

end Reader

open Reader

/-! ## The constant pool -/

theorem composed_readConstant (index : Nat) : (ConstantPool.readConstant index).Composed := by
  rw [readConstant_eq]
  refine composed_u1.bind fun tag => ?_
  split
  · exact composed_u2.bind fun n => (Composed.take _).bind fun _ => .pure _
  · rw [readOther]
    split
    · exact (composed_skip _).bind fun _ => .pure _
    · exact .throw trivial

theorem composed_readFrom (count : Nat) (pool : ConstantPool) :
    (ConstantPool.readFrom count pool).Composed := by
  induction pool using ConstantPool.readFrom.induct count with
  | case1 pool hlt ih =>
    rw [ConstantPool.readFrom, if_pos hlt]
    exact (composed_readConstant _).bind ih
  | case2 pool hge =>
    rw [ConstantPool.readFrom, if_neg hge]
    exact .pure pool

theorem composed_read : ConstantPool.read.Composed :=
  composed_u2.bind fun _ => composed_readFrom _ _

theorem composed_text (pool : ConstantPool) (index : UInt16) : (pool.text index).Composed := by
  rw [ConstantPool.text]
  split
  · exact .pure _
  · exact .throw trivial

/-! ## Attributes, fields and methods -/

theorem composed_skipAttributes : skipAttributes.Composed :=
  composed_u2.bind fun _ => composed_iterate
    (fun _ => (composed_skip 2).bind fun _ => composed_u4.bind fun _ => composed_skip _) _ _

theorem composed_readEntry (found : List LineEntry) : (readEntry found).Composed :=
  composed_u2.bind fun _ => Composed.position.bind fun _ => composed_u2.bind fun _ => .pure _

theorem composed_readTable (declared : Nat) (found : List LineEntry) :
    (readTable declared found).Composed :=
  composed_u2.bind fun _ => composed_check trivial (composed_iterate composed_readEntry _ _)

theorem composed_readBodyAttribute (pool : ConstantPool) (found : List LineEntry) :
    (readBodyAttribute pool found).Composed := by
  refine composed_u2.bind fun index => (composed_text pool index).bind fun name =>
    composed_u4.bind fun length => ?_
  split
  · exact composed_readTable length found
  · exact (composed_skip length).bind fun _ => .pure found

theorem composed_readBody (pool : ConstantPool) (declared : Nat) (found : List LineEntry) :
    (readBody pool declared found).Composed :=
  Composed.position.bind fun _ => (composed_skip 4).bind fun _ => composed_u4.bind fun _ =>
    (composed_skip _).bind fun _ => composed_u2.bind fun _ => (composed_skip _).bind fun _ =>
    composed_u2.bind fun _ =>
    (composed_iterate (composed_readBodyAttribute pool) _ _).bind fun _ =>
    Composed.position.bind fun _ => composed_check trivial (.pure _)

theorem composed_readMethodAttribute (pool : ConstantPool) (found : List LineEntry) :
    (readMethodAttribute pool found).Composed := by
  refine composed_u2.bind fun index => (composed_text pool index).bind fun name =>
    composed_u4.bind fun length => ?_
  split
  · exact composed_readBody pool length found
  · exact (composed_skip length).bind fun _ => .pure found

theorem composed_readMethod (pool : ConstantPool) (found : List MethodLines) :
    (readMethod pool found).Composed :=
  (composed_skip 2).bind fun _ => composed_u2.bind fun _ => (composed_text pool _).bind fun _ =>
    composed_u2.bind fun _ => (composed_text pool _).bind fun _ => composed_u2.bind fun _ =>
    (composed_iterate (composed_readMethodAttribute pool) _ _).bind fun _ => .pure _

/-- The reader of a class file is put together from single steps and ends with the check. -/
theorem whole_readMethods : readMethods.Whole := by
  refine .bind composed_u4 fun found => whole_check trivial ?_
  refine .bind (composed_skip 4) fun _ => .bind composed_read fun pool => ?_
  refine .bind (composed_skip 6) fun _ => .bind composed_u2 fun interfaces => ?_
  refine .bind (composed_skip _) fun _ => .bind composed_u2 fun fields => ?_
  have hfield : skipField.Composed := (composed_skip 6).bind fun _ => composed_skipAttributes
  refine .bind (composed_iterate (fun _ => hfield) _ _) fun _ => .bind composed_u2 fun count => ?_
  refine .bind (composed_iterate (composed_readMethod pool) _ _) fun methods => ?_
  exact .bind composed_skipAttributes fun _ => .ended methods.reverse

end Reline.ClassFile
