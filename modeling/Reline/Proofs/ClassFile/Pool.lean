/-
  Reline.Proofs.ClassFile.Pool

  Reading the constant pool.

  The reader of the pool walks over constants while their slots stay below the
  count. It succeeds exactly on the bytes of a pool of the grammar, and finds a
  text at a slot exactly where a text of the grammar begins. The slots are
  counted by the reader as the length of its table, by the grammar as a sum over
  the constants in front.
-/

import Reline.ClassFile.ConstantPool
import Reline.Proofs.ClassFile.Layout
import Reline.Proofs.ClassFile.Reader

namespace Reline.ClassFile

open Reader

/-! ## Single constants -/

/-- What a constant leaves in the pool. -/
def PoolConstant.kind : PoolConstant → Constant
  | text bytes _ => .text bytes
  | other tag .. => if tag = 5 ∨ tag = 6 then .double else .single

/-- The reader of a constant that is no text, by the length of its payload. -/
def readOther (tag : UInt8) (index : Nat) : Reader Constant :=
  match payloadLength tag with
  | some n => do
    skip n
    return (if tag = 5 ∨ tag = 6 then .double else .single)
  | none => throw (.badConstantTag tag index)

theorem readConstant_eq (index : Nat) :
    ConstantPool.readConstant index = (do
      let tag ← u1
      if tag = 1 then return .text (← take (← u2).toNat) else readOther tag index) := by
  unfold ConstantPool.readConstant
  congr 1
  funext tag
  split
  -- the reader tries the tags one after another; the last case is that of an unknown tag
  case h_18 htext _ _ _ _ _ _ _ _ _ _ _ _ _ _ _ _ =>
    have hnone : payloadLength tag = none := by
      unfold payloadLength
      split <;> first | contradiction | rfl
    rw [if_neg htext, readOther, hnone]
  all_goals rfl

theorem yields_readOther {tag : UInt8} {index : Nat} {constant : Constant} {cursor next : Cursor} :
    (readOther tag index).Yields cursor constant next
      ↔ ∃ payload : Bytes, payloadLength tag = some payload.length ∧ cursor.Passes payload next
        ∧ constant = if tag = 5 ∨ tag = 6 then .double else .single := by
  unfold readOther
  split
  next n hn =>
    simp only [yields_bind, yields_skip, yields_pure]
    constructor
    · rintro ⟨_, _, ⟨payload, rfl, hpass⟩, rfl, rfl⟩
      exact ⟨payload, hn, hpass, rfl⟩
    · rintro ⟨payload, hlen, hpass, rfl⟩
      rw [hn, Option.some.injEq] at hlen
      exact ⟨(), next, ⟨payload, hlen.symm, hpass⟩, rfl, rfl⟩
  next hnone =>
    constructor
    · intro h
      exact absurd h yields_throw
    · rintro ⟨payload, hlen, -⟩
      rw [hnone] at hlen
      contradiction

/-- The reader of a constant accepts exactly the constants of the grammar. -/
theorem yields_readConstant {index : Nat} {constant : Constant} {cursor next : Cursor} :
    (ConstantPool.readConstant index).Yields cursor constant next
      ↔ ∃ c : PoolConstant, cursor.Passes c.encode next ∧ constant = c.kind := by
  simp only [readConstant_eq, yields_bind, yields_u1]
  constructor
  · rintro ⟨tag, afterTag, htag, h⟩
    -- only a text has a length of its own; the tag gives that of the others
    by_cases htext : tag = 1
    · subst htext
      simp only [if_true, yields_bind, yields_u2, yields_take, yields_pure] at h
      obtain ⟨n, afterLength, hn, bytes, _, ⟨hlen, hbytes⟩, rfl, rfl⟩ := h
      have hlt : bytes.length < 65536 := hlen ▸ n.toNat_lt
      have hword : UInt16.ofNat bytes.length = n := by rw [hlen, UInt16.ofNat_toNat]
      refine ⟨.text bytes hlt, ?_, rfl⟩
      rw [PoolConstant.encode, hword, ← List.singleton_append, Cursor.passes_append]
      exact ⟨afterTag, htag, Cursor.passes_append.2 ⟨afterLength, hn, hbytes⟩⟩
    · rw [if_neg htext, yields_readOther] at h
      obtain ⟨payload, hlen, hpayload, rfl⟩ := h
      refine ⟨.other tag payload hlen, ?_, rfl⟩
      rw [PoolConstant.encode, ← List.singleton_append, Cursor.passes_append]
      exact ⟨afterTag, htag, hpayload⟩
  · rintro ⟨c, hpass, rfl⟩
    cases c with
    | text bytes hlt =>
      rw [PoolConstant.encode, ← List.singleton_append, Cursor.passes_append] at hpass
      obtain ⟨afterTag, htag, hpass⟩ := hpass
      obtain ⟨afterLength, hn, hbytes⟩ := Cursor.passes_append.1 hpass
      refine ⟨1, afterTag, htag, ?_⟩
      simp only [if_true, yields_bind, yields_u2, yields_take, yields_pure]
      have hlen : bytes.length = (UInt16.ofNat bytes.length).toNat := by
        rw [UInt16.toNat_ofNat', Nat.mod_eq_of_lt hlt]
      exact ⟨_, afterLength, hn, bytes, next, ⟨hlen, hbytes⟩, rfl, rfl⟩
    | other tag payload hlen =>
      rw [PoolConstant.encode, ← List.singleton_append, Cursor.passes_append] at hpass
      obtain ⟨afterTag, htag, hpayload⟩ := hpass
      have htext : tag ≠ 1 := by
        rintro rfl
        contradiction
      refine ⟨tag, afterTag, htag, ?_⟩
      rw [if_neg htext, yields_readOther]
      exact ⟨payload, hlen, hpayload, rfl⟩

/-! ## Filling the pool -/

/-- Constants that are read one after another, the first of them to a slot, until no slot below a
count is left. -/
def Fills (count : Nat) : (first : Nat) → List PoolConstant → Prop
  | first, [] => count ≤ first
  | first, constant :: rest => first < count ∧ Fills count (first + constant.slots) rest

/-- The pool with more constants. -/
def ConstantPool.pushAll (pool : ConstantPool) (constants : List PoolConstant) : ConstantPool :=
  constants.foldl (fun pool constant => pool.push constant.kind) pool

/-- A constant takes its slots behind those of the pool; only the first of them can hold a text. -/
theorem toList_push (pool : ConstantPool) (constant : PoolConstant) :
    (pool.push constant.kind).slots.toList
      = pool.slots.toList ++ constant.text? :: List.replicate (constant.slots - 1) none := by
  cases constant with
  | text bytes _ =>
    simp [PoolConstant.kind, PoolConstant.slots, PoolConstant.text?, ConstantPool.push]
  | other tag payload _ =>
    by_cases hdouble : tag = 5 ∨ tag = 6
    · simp [PoolConstant.kind, PoolConstant.slots, PoolConstant.text?, ConstantPool.push, hdouble]
    · simp [PoolConstant.kind, PoolConstant.slots, PoolConstant.text?, ConstantPool.push, hdouble]

theorem PoolConstant.slots_eq (constant : PoolConstant) :
    constant.slots = 1 ∨ constant.slots = 2 := by
  cases constant with
  | text bytes _ => exact .inl rfl
  | other tag payload _ =>
    rw [PoolConstant.slots]
    split
    · exact .inr rfl
    · exact .inl rfl

theorem next_push (pool : ConstantPool) (constant : PoolConstant) :
    (pool.push constant.kind).next = pool.next + constant.slots := by
  have hslots := constant.slots_eq
  have hlen := congrArg List.length (toList_push pool constant)
  simp only [Array.length_toList, List.length_append, List.length_cons, List.length_replicate]
    at hlen
  rw [ConstantPool.next, hlen, ConstantPool.next]
  omega

theorem yields_readFrom {count : Nat} {pool result : ConstantPool} {cursor next : Cursor} :
    (ConstantPool.readFrom count pool).Yields cursor result next
      ↔ ∃ constants, Fills count pool.next constants
        ∧ cursor.Passes (constants.flatMap PoolConstant.encode) next
        ∧ result = pool.pushAll constants := by
  -- the reader counts the slots of its table, the grammar those of the constants in front
  induction pool using ConstantPool.readFrom.induct count generalizing cursor with
  | case1 pool hlt ih =>
    rw [ConstantPool.readFrom, if_pos hlt]
    simp only [yields_bind, yields_readConstant, ih]
    constructor
    · rintro ⟨_, between, ⟨constant, hconstant, rfl⟩, constants, hfills, hpass, rfl⟩
      refine ⟨constant :: constants, ⟨hlt, ?_⟩, ?_, rfl⟩
      · rwa [← next_push]
      · exact Cursor.passes_append.2 ⟨between, hconstant, hpass⟩
    · rintro ⟨constants, hfills, hpass, rfl⟩
      cases constants with
      | nil => exact absurd hlt (Nat.not_lt.2 hfills)
      | cons constant constants =>
        obtain ⟨between, hconstant, hpass⟩ := Cursor.passes_append.1 hpass
        have hfills := hfills.2
        rw [← next_push] at hfills
        exact ⟨_, between, ⟨constant, hconstant, rfl⟩, constants, hfills, hpass, rfl⟩
  | case2 pool hge =>
    rw [ConstantPool.readFrom, if_neg hge, yields_pure]
    constructor
    · rintro ⟨rfl, rfl⟩
      exact ⟨[], Nat.not_lt.1 hge, Cursor.passes_nil.2 rfl, rfl⟩
    · rintro ⟨constants, hfills, hpass, rfl⟩
      cases constants with
      | nil => exact ⟨rfl, Cursor.passes_nil.1 hpass⟩
      | cons constant constants => exact absurd hfills.1 hge

/-! ## The count of a pool -/

/-- Constants fill a pool if the last of them begins below the count and ends at or behind it. -/
theorem fills_append {count first : Nat} {constants : List PoolConstant} {last : PoolConstant} :
    Fills count first (constants ++ [last])
      ↔ first + slotCount constants < count
        ∧ count ≤ first + slotCount constants + last.slots := by
  induction constants generalizing first with
  | nil => simp [Fills, slotCount]
  | cons constant constants ih =>
    have hslots := constant.slots_eq
    rw [List.cons_append, Fills, ih]
    simp only [slotCount, List.map_cons, List.sum_cons]
    omega

/-- The pools that are filled from the first slot on are those of the grammar. -/
theorem fills_one {count : Nat} {constants : List PoolConstant} :
    Fills count 1 constants ↔ Holds count constants := by
  rcases List.eq_nil_or_concat constants with rfl | ⟨constants, last, rfl⟩
  · simp only [Fills, Holds, slotCount, List.map_nil, List.sum_nil, List.getLast?_nil]
    simp
    omega
  · have hslots := last.slots_eq
    rw [List.concat_eq_append, fills_append, Holds]
    simp only [slotCount, List.map_append, List.sum_append, List.map_cons, List.map_nil,
      List.sum_cons, List.sum_nil, List.getLast?_append, List.getLast?_singleton]
    simp
    omega

/-! ## Texts -/

theorem text?_eq_none {pool : ConstantPool} {index : UInt16} (h : pool.next ≤ index.toNat) :
    pool.text? index = none := by
  rw [ConstantPool.text?, Array.getElem?_eq_none h]
  rfl

theorem text?_push (pool : ConstantPool) (constant : PoolConstant) (index : UInt16) :
    (pool.push constant.kind).text? index
      = if index.toNat = pool.next then constant.text? else pool.text? index := by
  have hnext : pool.next = pool.slots.toList.length := rfl
  rw [ConstantPool.text?, ← Array.getElem?_toList, toList_push, hnext]
  -- only the first slot of the constant can hold a text, and no earlier slot changes
  by_cases hfirst : index.toNat = pool.slots.toList.length
  · rw [if_pos hfirst, hfirst, List.getElem?_append_right (Nat.le_refl _), Nat.sub_self]
    rfl
  · rw [if_neg hfirst, ConstantPool.text?, ← Array.getElem?_toList]
    by_cases hfront : index.toNat < pool.slots.toList.length
    · rw [List.getElem?_append_left hfront]
    · obtain ⟨more, hmore⟩ : ∃ more, index.toNat = pool.slots.toList.length + (more + 1) :=
        ⟨index.toNat - pool.slots.toList.length - 1, by omega⟩
      rw [hmore, List.getElem?_append_right (Nat.le_add_right _ _), Nat.add_sub_cancel_left,
        List.getElem?_cons_succ, List.getElem?_replicate,
        List.getElem?_eq_none (Nat.le_add_right _ _)]
      split <;> rfl

/-- No text begins in front of the first slot. -/
theorem textFrom_of_lt {first slot : Nat} {constants : List PoolConstant} (h : slot < first) :
    Pool.textFrom first constants slot = none := by
  induction constants generalizing first with
  | nil => rfl
  | cons constant constants ih =>
    rw [Pool.textFrom, if_neg (Nat.ne_of_lt h)]
    exact ih (Nat.lt_add_right _ h)

/-- A table that was filled has a text exactly where one begins. -/
theorem text?_pushAll (pool : ConstantPool) (constants : List PoolConstant) (index : UInt16) :
    (pool.pushAll constants).text? index
      = if index.toNat < pool.next then pool.text? index
        else Pool.textFrom pool.next constants index.toNat := by
  induction constants generalizing pool with
  | nil =>
    show pool.text? index = _
    split
    · rfl
    · exact text?_eq_none (by omega)
  | cons constant constants ih =>
    have hslots := constant.slots_eq
    show ((pool.push constant.kind).pushAll constants).text? index = _
    rw [ih, next_push, text?_push, Pool.textFrom]
    by_cases hfront : index.toNat < pool.next
    · rw [if_pos (by omega), if_neg (by omega), if_pos hfront]
    · rw [if_neg hfront]
      by_cases hfirst : index.toNat = pool.next
      · rw [if_pos (by omega), if_pos hfirst, if_pos hfirst]
      · rw [if_neg hfirst, if_neg hfirst]
        -- what is left below the next slot is the second slot of this constant
        by_cases hsecond : index.toNat < pool.next + constant.slots
        · rw [if_pos hsecond, text?_eq_none (by omega), textFrom_of_lt hsecond]
        · rw [if_neg hsecond]

/-- A table of the reader has the texts of a pool of the grammar. -/
def ConstantPool.Represents (table : ConstantPool) (pool : Pool) : Prop :=
  ∀ index, table.text? index = pool.text? index

theorem represents_pushAll (pool : Pool) :
    (ConstantPool.empty.pushAll pool.constants).Represents pool := by
  intro index
  rw [text?_pushAll, Pool.text?]
  split
  next hzero =>
    have hzero : index.toNat = 0 := Nat.lt_one_iff.1 hzero
    rw [hzero, textFrom_of_lt Nat.one_pos, ConstantPool.text?, hzero]
    rfl
  next => rfl

/-- The reader of the pool accepts exactly the pools of the grammar. -/
theorem yields_read {table : ConstantPool} {cursor next : Cursor} :
    ConstantPool.read.Yields cursor table next
      ↔ ∃ pool : Pool, cursor.Passes pool.encode next
        ∧ table = ConstantPool.empty.pushAll pool.constants := by
  simp only [ConstantPool.read, yields_bind, yields_u2, yields_readFrom]
  constructor
  · rintro ⟨count, between, hcount, constants, hfills, hpass, rfl⟩
    refine ⟨⟨count, constants, fills_one.1 hfills⟩, ?_, rfl⟩
    exact Cursor.passes_append.2 ⟨between, hcount, hpass⟩
  · rintro ⟨⟨count, constants, hholds⟩, hpass, rfl⟩
    obtain ⟨between, hcount, hpass⟩ := Cursor.passes_append.1 hpass
    exact ⟨count, between, hcount, constants, fills_one.2 hholds, hpass, rfl⟩

/-- Looking up a name succeeds exactly for names of the grammar. -/
theorem yields_text {table : ConstantPool} {pool : Pool} (h : table.Represents pool)
    {index : UInt16} {bytes : Bytes} {cursor next : Cursor} :
    (table.text index).Yields cursor bytes next
      ↔ pool.text? index = some bytes ∧ next = cursor := by
  rw [ConstantPool.text, h index]
  cases pool.text? index with
  | none =>
    constructor
    · intro h
      exact absurd h yields_throw
    · rintro ⟨h, -⟩
      contradiction
  | some found =>
    simp only [yields_pure, Option.some.injEq, eq_comm]

end Reline.ClassFile
