/-
  Reline.Proofs.ClassFile.Slots

  How the constants of a class file are numbered.

  A constant has the number of the slot behind those of the constants in front of
  it, counted from one on. Constants are read while the next slot lies below the
  count. If that ends, a name finds the text that begins at its slot, and nothing
  at any other slot. If it does not, the bytes behind some constants begin with
  none, although the next slot lies below the count; a tag that is reported is the
  byte there, and the number that is reported with it is that of the slot.

  Main statement: `read_numbers_slots`.
-/

import Reline.Proofs.ClassFile.Continuation

namespace Reline.ClassFile

open Reader

/-! ## Where constants begin -/

theorem slotCount_cons (constant : PoolConstant) (constants : List PoolConstant) :
    slotCount (constant :: constants) = constant.slots + slotCount constants := by
  rw [slotCount, List.map_cons, List.sum_cons, slotCount]

theorem PoolConstant.slots_pos (constant : PoolConstant) : 0 < constant.slots := by
  rcases constant.slots_eq with h | h <;> omega

/-- Whether a constant begins at a slot, given the first slot of all constants: its slot is the next
one behind those of the constants in front of it. -/
def BeginsAt (first : Nat) (constants : List PoolConstant) (slot : Nat) (constant : PoolConstant) :
    Prop :=
  ∃ front back, constants = front ++ constant :: back ∧ slot = first + slotCount front

variable {first slot slot' : Nat} {constants : List PoolConstant}
  {constant constant' : PoolConstant}

theorem not_beginsAt_nil : ¬BeginsAt first [] slot constant := by
  rintro ⟨front, back, hsplit, -⟩
  exact List.append_ne_nil_of_right_ne_nil front (List.cons_ne_nil constant back) hsplit.symm

theorem beginsAt_cons {head : PoolConstant} :
    BeginsAt first (head :: constants) slot constant
      ↔ slot = first ∧ constant = head ∨ BeginsAt (first + head.slots) constants slot constant := by
  constructor
  · rintro ⟨front, back, hsplit, hslot⟩
    cases front with
    | nil =>
      cases hsplit
      exact .inl ⟨hslot, rfl⟩
    | cons _ front =>
      cases hsplit
      rw [slotCount_cons, ← Nat.add_assoc] at hslot
      exact .inr ⟨front, back, rfl, hslot⟩
  · rintro (⟨rfl, rfl⟩ | ⟨front, back, rfl, rfl⟩)
    · exact ⟨[], constants, rfl, rfl⟩
    · refine ⟨head :: front, back, rfl, ?_⟩
      rw [slotCount_cons, Nat.add_assoc]

theorem BeginsAt.le (h : BeginsAt first constants slot constant) : first ≤ slot := by
  obtain ⟨front, back, -, rfl⟩ := h
  exact Nat.le_add_right _ _

/-- Two constants have no slot in common. -/
theorem BeginsAt.eq_or_apart (h : BeginsAt first constants slot constant)
    (h' : BeginsAt first constants slot' constant') :
    slot = slot' ∧ constant = constant' ∨ slot + constant.slots ≤ slot'
      ∨ slot' + constant'.slots ≤ slot := by
  induction constants generalizing first with
  | nil => exact absurd h not_beginsAt_nil
  | cons head constants ih =>
    rcases beginsAt_cons.1 h with ⟨rfl, rfl⟩ | h
    · rcases beginsAt_cons.1 h' with ⟨rfl, rfl⟩ | h'
      · exact .inl ⟨rfl, rfl⟩
      · exact .inr (.inl h'.le)
    · rcases beginsAt_cons.1 h' with ⟨rfl, rfl⟩ | h'
      · exact .inr (.inr h.le)
      · exact ih h h'

/-- Every slot of constants is the first one of some constant, or the second one of some constant of
two slots. -/
theorem exists_beginsAt (hfirst : first ≤ slot) (hslot : slot < first + slotCount constants) :
    (∃ constant, BeginsAt first constants slot constant)
      ∨ ∃ constant slot', BeginsAt first constants slot' constant ∧ constant.slots = 2
        ∧ slot = slot' + 1 := by
  induction constants generalizing first with
  | nil =>
    rw [slotCount, List.map_nil, List.sum_nil] at hslot
    omega
  | cons head constants ih =>
    rw [slotCount_cons] at hslot
    have hhead : BeginsAt first (head :: constants) first head := beginsAt_cons.2 (.inl ⟨rfl, rfl⟩)
    have hslots := head.slots_eq
    by_cases hbehind : first + head.slots ≤ slot
    · rcases ih hbehind (by omega) with ⟨constant, hbegins⟩ | ⟨constant, slot', hbegins, hdouble⟩
      · exact .inl ⟨constant, beginsAt_cons.2 (.inr hbegins)⟩
      · exact .inr ⟨constant, slot', beginsAt_cons.2 (.inr hbegins), hdouble⟩
    · by_cases heq : slot = first
      · exact .inl ⟨head, heq ▸ hhead⟩
      · exact .inr ⟨head, first, hhead, by omega, by omega⟩

/-- The text at a slot is that of the constant that begins there. -/
theorem textFrom_eq_some_iff {bytes : Bytes} :
    Pool.textFrom first constants slot = some bytes
      ↔ ∃ constant, BeginsAt first constants slot constant ∧ constant.text? = some bytes := by
  induction constants generalizing first with
  | nil =>
    constructor
    · intro h
      contradiction
    · rintro ⟨constant, hbegins, -⟩
      exact absurd hbegins not_beginsAt_nil
  | cons head constants ih =>
    simp only [Pool.textFrom, beginsAt_cons]
    constructor
    · intro h
      split at h
      case isTrue heq => exact ⟨head, .inl ⟨heq, rfl⟩, h⟩
      case isFalse =>
        obtain ⟨constant, hbegins, htext⟩ := ih.1 h
        exact ⟨constant, .inr hbegins, htext⟩
    · rintro ⟨constant, ⟨rfl, rfl⟩ | hbegins, htext⟩
      · rw [if_pos rfl, htext]
      · have hle := hbegins.le
        have hpos := head.slots_pos
        rw [if_neg (by omega)]
        exact ih.2 ⟨constant, hbegins, htext⟩

/-! ## Constants below a count -/

/-- Constants that fill a pool begin below its count and end at or behind it. -/
theorem Fills.bounds {count : Nat} (h : Fills count first constants) :
    (∀ slot constant, BeginsAt first constants slot constant → slot < count)
      ∧ count ≤ first + slotCount constants := by
  induction constants generalizing first with
  | nil => exact ⟨fun _ _ hbegins => absurd hbegins not_beginsAt_nil, h⟩
  | cons head constants ih =>
    obtain ⟨hlt, hrest⟩ := h
    obtain ⟨hbelow, hend⟩ := ih hrest
    refine ⟨fun slot constant hbegins => ?_, ?_⟩
    · rcases beginsAt_cons.1 hbegins with ⟨rfl, -⟩ | hbegins
      · exact hlt
      · exact hbelow slot constant hbegins
    · rw [slotCount_cons]
      omega

/-- No text is at a slot in front of all constants, at one from the count on, at that of a constant
of another kind, and at the second one of a constant of two. -/
theorem textFrom_eq_none_iff {count : Nat} (hfills : Fills count first constants) :
    Pool.textFrom first constants slot = none
      ↔ slot < first ∨ count ≤ slot
        ∨ (∃ constant, BeginsAt first constants slot constant ∧ constant.text? = none)
        ∨ ∃ constant slot', BeginsAt first constants slot' constant ∧ constant.slots = 2
          ∧ slot = slot' + 1 := by
  obtain ⟨hbelow, hend⟩ := hfills.bounds
  constructor
  · intro hnone
    by_cases hfirst : slot < first
    · exact .inl hfirst
    by_cases hcount : count ≤ slot
    · exact .inr (.inl hcount)
    -- the slot is one of those that the constants take
    have htaken : slot < first + slotCount constants :=
      Nat.lt_of_lt_of_le (Nat.not_le.1 hcount) hend
    rcases exists_beginsAt (Nat.not_lt.1 hfirst) htaken with ⟨constant, hbegins⟩ | hsecond
    · refine .inr (.inr (.inl ⟨constant, hbegins, ?_⟩))
      refine Option.eq_none_iff_forall_ne_some.2 fun bytes htext => ?_
      cases hnone.symm.trans (textFrom_eq_some_iff.2 ⟨constant, hbegins, htext⟩)
    · exact .inr (.inr (.inr hsecond))
  · intro hcases
    refine Option.eq_none_iff_forall_ne_some.2 fun bytes htext => ?_
    -- a text begins at the slot, and then it is none of these
    obtain ⟨constant, hbegins, htext⟩ := textFrom_eq_some_iff.1 htext
    have hpos := constant.slots_pos
    rcases hcases with hfirst | hcount | ⟨other, hother, hnone⟩
      | ⟨other, slot', hother, hdouble, heq⟩
    · exact absurd hbegins.le (Nat.not_le.2 hfirst)
    · exact absurd (hbelow _ _ hbegins) (Nat.not_lt.2 hcount)
    · have hpos' := other.slots_pos
      rcases hbegins.eq_or_apart hother with ⟨-, rfl⟩ | happart | happart
      · cases htext.symm.trans hnone
      · omega
      · omega
    · rcases hbegins.eq_or_apart hother with ⟨rfl, -⟩ | happart | happart <;> omega

/-! ## Looking up names -/

/-- Whether looking up a name in a table finds the texts of constants by the slots at which they
begin, and fails for the other slots: for zero, for those from the count on, for those of another
kind, and for the second slot of a constant of two. -/
def ConstantPool.FindsTexts (table : ConstantPool) (count : UInt16)
    (constants : List PoolConstant) : Prop :=
  ∀ (index : UInt16) (cursor : Cursor),
    (∀ bytes next, (table.text index).Yields cursor bytes next ↔ next = cursor
      ∧ ∃ constant, BeginsAt 1 constants index.toNat constant ∧ constant.text? = some bytes)
    ∧ ((table.text index).run cursor = .error (.notUtf8 index)
      ↔ index = 0 ∨ count ≤ index
        ∨ (∃ constant, BeginsAt 1 constants index.toNat constant ∧ constant.text? = none)
        ∨ ∃ constant slot, BeginsAt 1 constants slot constant ∧ constant.slots = 2
          ∧ index.toNat = slot + 1)

/-- Looking up a name gives a text, or fails. -/
theorem run_text (table : ConstantPool) (index : UInt16) (cursor : Cursor) :
    (table.text index).run cursor = match table.text? index with
      | some bytes => .ok (bytes, cursor)
      | none => .error (.notUtf8 index) := by
  rw [ConstantPool.text]
  cases table.text? index <;> rfl

theorem run_text_eq_error_iff {table : ConstantPool} {index : UInt16} {cursor : Cursor} :
    (table.text index).run cursor = .error (.notUtf8 index) ↔ table.text? index = none := by
  rw [run_text]
  cases table.text? index <;> simp

theorem findsTexts_pushAll {count : UInt16} (hfills : Fills count.toNat 1 constants) :
    (ConstantPool.empty.pushAll constants).FindsTexts count constants := by
  intro index cursor
  have hpool := represents_pushAll ⟨count, constants, fills_one.1 hfills⟩
  constructor
  · intro bytes next
    rw [yields_text hpool, Pool.text?, textFrom_eq_some_iff, and_comm]
  · have hzero : index.toNat < 1 ↔ index = 0 := by
      rw [Nat.lt_one_iff, ← UInt16.toNat_inj]
      rfl
    rw [run_text_eq_error_iff, hpool index, Pool.text?, textFrom_eq_none_iff hfills, hzero,
      UInt16.le_iff_toNat_le]

/-! ## Faults -/

namespace Reader

variable {α β : Type}

/-- A reader that fails only where bytes are missing. -/
def OnlyTruncates (reader : Reader α) : Prop :=
  ∀ cursor e, reader.run cursor = .error e → ∃ offset needed, e = .truncated offset needed

theorem onlyTruncates_take (n : Nat) : (take n).OnlyTruncates := by
  intro cursor e h
  by_cases hfew : cursor.remaining < n
  · rw [run_take_of_lt hfew] at h
    cases h
    exact ⟨_, _, rfl⟩
  · rw [run_take_of_le (Nat.not_lt.1 hfew)] at h
    contradiction

theorem onlyTruncates_pure (value : α) : (pure value : Reader α).OnlyTruncates := by
  intro cursor e h
  have h : Except.ok (value, cursor) = Except.error e := h
  contradiction

theorem OnlyTruncates.bind {reader : Reader α} {rest : α → Reader β} (h : reader.OnlyTruncates)
    (hrest : ∀ value, (rest value).OnlyTruncates) : (reader >>= rest).OnlyTruncates := by
  intro cursor e hrun
  rcases run_bind_eq_error_iff.1 hrun with hfirst | ⟨value, between, -, hlater⟩
  · exact h cursor e hfirst
  · exact hrest value between e hlater

theorem onlyTruncates_skip (n : Nat) : (skip n).OnlyTruncates := by
  rw [skip_eq_take]
  exact (onlyTruncates_take n).bind fun _ => onlyTruncates_pure ()

theorem onlyTruncates_u1 : u1.OnlyTruncates :=
  (onlyTruncates_take 1).bind fun _ => onlyTruncates_pure _

theorem onlyTruncates_u2 : u2.OnlyTruncates :=
  (onlyTruncates_take 2).bind fun _ => onlyTruncates_pure _

end Reader

/-- The tags of all kinds of constants. -/
def knownTags : List UInt8 := [1, 3, 4, 5, 6, 7, 8, 9, 10, 11, 12, 15, 16, 17, 18, 19, 20]

theorem not_mem_knownTags_iff {tag : UInt8} :
    tag ∉ knownTags ↔ tag ≠ 1 ∧ payloadLength tag = none := by
  unfold payloadLength
  split <;> simp_all [knownTags]

/-- A tag is reported if it is the next byte and unknown; all other faults are missing bytes. -/
theorem run_readConstant_eq_error {index : Nat} {cursor : Cursor} {e : FormatError}
    (h : (ConstantPool.readConstant index).run cursor = .error e) :
    (∃ offset needed, e = .truncated offset needed)
      ∨ ∃ tag tail, cursor.rest = tag :: tail ∧ tag ∉ knownTags
        ∧ e = .badConstantTag tag index := by
  rw [readConstant_eq] at h
  rcases run_bind_eq_error_iff.1 h with hshort | ⟨tag, between, htag, h⟩
  · exact .inl (onlyTruncates_u1 cursor e hshort)
  · by_cases htext : tag = 1
    · rw [if_pos htext] at h
      have hread :
          (do return Constant.text (← take (← u2).toNat) : Reader Constant).OnlyTruncates :=
        onlyTruncates_u2.bind fun n => (onlyTruncates_take _).bind fun _ => onlyTruncates_pure _
      exact .inl (hread between e h)
    · rw [if_neg htext, readOther] at h
      split at h
      next n _ =>
        have hread : (do skip n; return (if tag = 5 ∨ tag = 6 then .double else .single) :
            Reader Constant).OnlyTruncates :=
          (onlyTruncates_skip n).bind fun _ => onlyTruncates_pure _
        exact .inl (hread between e h)
      next hnone =>
        have h : Except.error (FormatError.badConstantTag tag index) = Except.error e := h
        cases h
        exact .inr ⟨tag, between.rest, (yields_u1.1 htag).1,
          not_mem_knownTags_iff.2 ⟨htext, hnone⟩, rfl⟩

/-- An unknown tag is reported with the number of its slot. -/
theorem run_readConstant_of_unknown {index : Nat} {cursor : Cursor} {tag : UInt8} {tail : Bytes}
    (hrest : cursor.rest = tag :: tail) (htag : tag ∉ knownTags) :
    (ConstantPool.readConstant index).run cursor = .error (.badConstantTag tag index) := by
  obtain ⟨htext, hnone⟩ := not_mem_knownTags_iff.1 htag
  have hpass : cursor.Passes [tag] (cursor.advance 1) := Cursor.passes_advance hrest
  rw [readConstant_eq, run_bind_ok (yields_u1.2 hpass), if_neg htext, readOther, hnone]
  rfl

/-- Reading constants fails at the one behind some constants that leave a slot below the count. -/
theorem run_readFrom_eq_error_iff {count : Nat} {pool : ConstantPool} {cursor : Cursor}
    {e : FormatError} :
    (ConstantPool.readFrom count pool).run cursor = .error e
      ↔ ∃ constants between, cursor.Passes (constants.flatMap PoolConstant.encode) between
        ∧ pool.next + slotCount constants < count
        ∧ (ConstantPool.readConstant (pool.next + slotCount constants)).run between
          = .error e := by
  induction pool using ConstantPool.readFrom.induct count generalizing cursor with
  | case1 pool hlt ih =>
    rw [ConstantPool.readFrom, if_pos hlt, run_bind_eq_error_iff]
    simp only [yields_readConstant, ih]
    -- the fault is in the first constant, or behind it
    constructor
    · rintro (h | ⟨_, between, ⟨constant, hconstant, rfl⟩, constants, behind, hpass, hbelow, h⟩)
      · exact ⟨[], cursor, Cursor.passes_nil.2 rfl, hlt, h⟩
      · rw [next_push, Nat.add_assoc, ← slotCount_cons] at hbelow h
        exact ⟨constant :: constants, behind, Cursor.passes_append.2 ⟨between, hconstant, hpass⟩,
          hbelow, h⟩
    · rintro ⟨constants, behind, hpass, hbelow, h⟩
      cases constants with
      | nil =>
        cases Cursor.passes_nil.1 hpass
        exact .inl h
      | cons constant constants =>
        obtain ⟨between, hconstant, hpass⟩ := Cursor.passes_append.1 hpass
        rw [slotCount_cons, ← Nat.add_assoc, ← next_push] at hbelow h
        exact .inr ⟨_, between, ⟨constant, hconstant, rfl⟩, constants, behind, hpass, hbelow, h⟩
  | case2 pool hge =>
    rw [ConstantPool.readFrom, if_neg hge]
    constructor
    · intro h
      have h : Except.ok (pool, cursor) = Except.error e := h
      contradiction
    · rintro ⟨constants, between, -, hbelow, -⟩
      omega

/-! ## The pool as a whole -/

section Read

variable {n : UInt16} {bytes : Bytes} {cursor : Cursor}

/-- Reading a pool reads its constants behind its count. -/
theorem run_read (h : cursor.rest = Piece.word n ++ bytes) :
    ConstantPool.read.run cursor
      = (ConstantPool.readFrom n.toNat .empty).run (cursor.advance 2) := by
  have hpass : cursor.Passes (Piece.word n) (cursor.advance 2) := Cursor.passes_advance h
  rw [ConstantPool.read, run_bind_ok (yields_u2.2 hpass)]

theorem rest_advance_two (h : cursor.rest = Piece.word n ++ bytes) :
    (cursor.advance 2).rest = bytes := by
  rw [Cursor.rest_advance, h]
  rfl

/-- Where a cursor gets to over bytes that it has in front of it. -/
theorem exists_passes {rest : Bytes} (h : cursor.rest = bytes ++ rest) :
    ∃ next, cursor.Passes bytes next ∧ next.rest = rest := by
  have hpass := Cursor.passes_advance h
  refine ⟨_, hpass, ?_⟩
  rw [Cursor.rest_advance, h, List.drop_left]

/-- Reading a pool fails behind constants that leave a slot below the count. -/
theorem run_read_eq_error_iff (h : cursor.rest = Piece.word n ++ bytes) {e : FormatError} :
    ConstantPool.read.run cursor = .error e
      ↔ ∃ constants between,
        (cursor.advance 2).Passes (constants.flatMap PoolConstant.encode) between
          ∧ 1 + slotCount constants < n.toNat
          ∧ (ConstantPool.readConstant (1 + slotCount constants)).run between = .error e := by
  rw [run_read h, run_readFrom_eq_error_iff]
  rfl

/-- A tag is reported if it stands unknown behind constants that leave a slot below the count, with
the number of that slot. -/
theorem run_read_eq_badConstantTag_iff (h : cursor.rest = Piece.word n ++ bytes) {tag : UInt8}
    {index : Nat} :
    ConstantPool.read.run cursor = .error (.badConstantTag tag index)
      ↔ ∃ constants tail, bytes = constants.flatMap PoolConstant.encode ++ tag :: tail
        ∧ index = 1 + slotCount constants ∧ index < n.toNat ∧ tag ∉ knownTags := by
  rw [run_read_eq_error_iff h]
  constructor
  · rintro ⟨constants, between, hpass, hbelow, hfault⟩
    rcases run_readConstant_eq_error hfault with ⟨_, _, htruncated⟩ | ⟨_, tail, htail, hunknown, he⟩
    · contradiction
    · cases he
      refine ⟨constants, tail, ?_, rfl, hbelow, hunknown⟩
      rw [← rest_advance_two h, hpass.1, htail]
  · rintro ⟨constants, tail, rfl, rfl, hbelow, hunknown⟩
    obtain ⟨between, hpass, htail⟩ := exists_passes (rest_advance_two h)
    exact ⟨constants, between, hpass, hbelow, run_readConstant_of_unknown htail hunknown⟩

/-- Reading a pool of `n` slots reads constants while the next slot lies below `n`. If it succeeds,
a name finds the text that begins at its slot and nothing at all other slots. If it fails, no
constant begins behind some that leave a slot below `n`; a tag that is reported is the unknown one
there, under the number of that slot, which fits its word. -/
theorem read_numbers_slots (h : cursor.rest = Piece.word n ++ bytes) :
    (∀ constants rest, bytes = constants.flatMap PoolConstant.encode ++ rest →
      Fills n.toNat 1 constants →
        ∃ table next, ConstantPool.read.Yields cursor table next ∧ next.rest = rest
          ∧ table.FindsTexts n constants)
      ∧ (∀ table next, ConstantPool.read.Yields cursor table next →
        ∃ constants, bytes = constants.flatMap PoolConstant.encode ++ next.rest
          ∧ Fills n.toNat 1 constants ∧ table.FindsTexts n constants)
      ∧ (∀ e, ConstantPool.read.run cursor = .error e →
        ∃ constants rest, bytes = constants.flatMap PoolConstant.encode ++ rest
          ∧ 1 + slotCount constants < n.toNat
          ∧ ∀ (constant : PoolConstant) tail, rest ≠ constant.encode ++ tail)
      ∧ (∀ tag index, ConstantPool.read.run cursor = .error (.badConstantTag tag index)
        ↔ ∃ constants tail, bytes = constants.flatMap PoolConstant.encode ++ tag :: tail
          ∧ index = 1 + slotCount constants ∧ index < n.toNat ∧ tag ∉ knownTags)
      ∧ ∀ tag index, ConstantPool.read.run cursor = .error (.badConstantTag tag index) →
        1 ≤ index ∧ (UInt16.ofNat index).toNat = index := by
  refine ⟨fun constants rest hbytes hfills => ?_, fun table next hread => ?_, fun e hfault => ?_,
    fun tag index => run_read_eq_badConstantTag_iff h, fun tag index hfault => ?_⟩
  · obtain ⟨next, hpass, hrest⟩ := exists_passes ((rest_advance_two h).trans hbytes)
    refine ⟨ConstantPool.empty.pushAll constants, next, ?_, hrest, findsTexts_pushAll hfills⟩
    rw [Yields, run_read h]
    exact yields_readFrom.2 ⟨constants, hfills, hpass, rfl⟩
  · rw [Yields, run_read h] at hread
    obtain ⟨constants, hfills, hpass, rfl⟩ := yields_readFrom.1 hread
    refine ⟨constants, ?_, hfills, findsTexts_pushAll hfills⟩
    rw [← rest_advance_two h, hpass.1]
  · obtain ⟨constants, between, hpass, hbelow, hfault⟩ := (run_read_eq_error_iff h).1 hfault
    refine ⟨constants, between.rest, ?_, hbelow, fun constant tail hrest => ?_⟩
    · rw [← rest_advance_two h, hpass.1]
    · -- a constant that stood there would have been read
      have hconstant : (ConstantPool.readConstant (1 + slotCount constants)).Yields between
          constant.kind (between.advance constant.encode.length) :=
        yields_readConstant.2 ⟨constant, Cursor.passes_advance hrest, rfl⟩
      rw [Yields, hfault] at hconstant
      contradiction
  · obtain ⟨constants, tail, -, rfl, hbelow, -⟩ := (run_read_eq_badConstantTag_iff h).1 hfault
    refine ⟨Nat.le_add_right _ _, ?_⟩
    rw [UInt16.toNat_ofNat', Nat.mod_eq_of_lt (Nat.lt_trans hbelow n.toNat_lt)]

end Read

/-- A pool of three slots whose last constant takes a slot behind them, and one of five with a tag
that no constant has. -/
theorem read_numbers_slots_double :
    (∃ table next,
      ConstantPool.read.Yields
        (Cursor.start ([0, 3, 1, 0, 1, 102, 5, 0, 0, 0, 0, 0, 0, 0, 9] ++ [7])) table next
        ∧ next.rest = [7] ∧ (∀ cursor, (table.text 1).Yields cursor [102] cursor)
        ∧ ∀ cursor, ∀ index ∈ [0, 2, 3], (table.text index).run cursor = .error (.notUtf8 index))
      ∧ ConstantPool.read.run
        (Cursor.start ([0, 5, 1, 0, 1, 102, 5, 0, 0, 0, 0, 0, 0, 0, 9] ++ [2]))
          = .error (.badConstantTag 2 4) := by
  let name : PoolConstant := .text [102] (by decide)
  let long : PoolConstant := .other 5 [0, 0, 0, 0, 0, 0, 0, 9] (by decide)
  constructor
  · have h : (Cursor.start ([0, 3, 1, 0, 1, 102, 5, 0, 0, 0, 0, 0, 0, 0, 9] ++ [7])).rest
        = Piece.word 3 ++ ([name, long].flatMap PoolConstant.encode ++ [7]) := by decide
    have hfills : Fills 3 1 [name, long] := ⟨by decide, by decide, Nat.le_succ 3⟩
    obtain ⟨table, next, hread, hrest, htexts⟩ :=
      (read_numbers_slots h).1 [name, long] [7] rfl hfills
    have hlong : BeginsAt 1 [name, long] 2 long := ⟨[name], [], rfl, rfl⟩
    refine ⟨table, next, hread, hrest, fun cursor => ?_, fun cursor index hindex => ?_⟩
    · exact ((htexts 1 cursor).1 [102] cursor).2 ⟨rfl, name, ⟨[], [long], rfl, rfl⟩, rfl⟩
    · rw [(htexts index cursor).2]
      rcases List.mem_cons.1 hindex with rfl | hindex
      · exact .inl rfl
      · rcases List.mem_cons.1 hindex with rfl | hindex
        · exact .inr (.inr (.inl ⟨long, hlong, rfl⟩))
        · cases List.mem_singleton.1 hindex
          exact .inr (.inl (by decide))
  · have h : (Cursor.start ([0, 5, 1, 0, 1, 102, 5, 0, 0, 0, 0, 0, 0, 0, 9] ++ [2])).rest
        = Piece.word 5 ++ ([name, long].flatMap PoolConstant.encode ++ [2]) := by decide
    exact ((read_numbers_slots h).2.2.2.1 2 4).2
      ⟨[name, long], [], rfl, by decide, by decide, by decide⟩

end Reline.ClassFile
