/-
  Reline.Proofs.ClassFile.Reader

  What the primitive readers of a class file yield.

  A reader is described by an equivalence: it yields a value between two cursors
  exactly when certain bytes stand between them. The equivalences compose along
  the sequence of readers as the bytes do by concatenation, so that each proof
  about a reader serves both directions, what it accepts and what it reports.
-/

import Reline.ClassFile.Cursor
import Reline.Proofs.ClassFile.Piece

namespace Reline.ClassFile

/-! ## Bytes between cursors -/

/-- Two cursors at the same place of the same bytes are equal; the count follows. -/
theorem Cursor.ext {cursor next : Cursor} (hposition : cursor.position = next.position)
    (hrest : cursor.rest = next.rest) : cursor = next := by
  obtain ⟨position, rest, remaining, hlen⟩ := cursor
  obtain ⟨position', rest', remaining', hlen'⟩ := next
  have hposition : position = position' := hposition
  have hrest : rest = rest' := hrest
  subst hposition hrest
  rw [hlen] at hlen'
  subst hlen'
  rfl

/-- Between two cursors stand exactly these bytes. -/
def Cursor.Passes (cursor : Cursor) (bytes : Bytes) (next : Cursor) : Prop :=
  cursor.rest = bytes ++ next.rest ∧ next.position = cursor.position + bytes.length

namespace Cursor

variable {cursor next : Cursor}

theorem Passes.position {bytes : Bytes} (h : cursor.Passes bytes next) :
    next.position = cursor.position + bytes.length := h.2

theorem Passes.remaining {bytes : Bytes} (h : cursor.Passes bytes next) :
    cursor.remaining = bytes.length + next.remaining := by
  rw [← cursor.length_rest, ← next.length_rest, h.1, List.length_append]

@[simp] theorem position_advance (cursor : Cursor) (n : Nat) :
    (cursor.advance n).position = cursor.position + n := rfl

@[simp] theorem rest_advance (cursor : Cursor) (n : Nat) :
    (cursor.advance n).rest = cursor.rest.drop n := rfl

@[simp] theorem passes_nil : cursor.Passes [] next ↔ next = cursor := by
  constructor
  · intro h
    exact Cursor.ext h.2 h.1.symm
  · rintro rfl
    exact ⟨rfl, rfl⟩

/-- The cursor behind bytes that a cursor has in front of it. -/
theorem passes_advance {bytes rest : Bytes} (h : cursor.rest = bytes ++ rest) :
    cursor.Passes bytes (cursor.advance bytes.length) := by
  constructor
  · rw [rest_advance, h, List.drop_left]
  · rw [position_advance]

/-- A cursor passes one sequence behind another through the place between them. -/
theorem passes_append {bytes more : Bytes} :
    cursor.Passes (bytes ++ more) next
      ↔ ∃ between, cursor.Passes bytes between ∧ between.Passes more next := by
  constructor
  · intro h
    have hrest : cursor.rest = bytes ++ (more ++ next.rest) := by rw [h.1, List.append_assoc]
    refine ⟨cursor.advance bytes.length, passes_advance hrest, ?_, ?_⟩
    · rw [rest_advance, hrest, List.drop_left]
    · rw [h.2, List.length_append, position_advance, Nat.add_assoc]
  · rintro ⟨between, hbytes, hmore⟩
    constructor
    · rw [hbytes.1, hmore.1, List.append_assoc]
    · rw [hmore.2, hbytes.2, List.length_append, Nat.add_assoc]

end Cursor

namespace Reader

/-! ## Sequences of readers -/

/-- A reader succeeds at a cursor with a value, and stops at another cursor. -/
def Yields {α : Type} (reader : Reader α) (cursor : Cursor) (value : α) (next : Cursor) : Prop :=
  reader.run cursor = .ok (value, next)

variable {α β : Type} {cursor next : Cursor}

@[simp] theorem yields_pure {value result : α} :
    Yields (pure value) cursor result next ↔ result = value ∧ next = cursor := by
  show Except.ok (value, cursor) = Except.ok (result, next) ↔ _
  simp only [Except.ok.injEq, Prod.mk.injEq, eq_comm]

@[simp] theorem yields_bind {reader : Reader α} {rest : α → Reader β} {result : β} :
    Yields (reader >>= rest) cursor result next
      ↔ ∃ value between, Yields reader cursor value between
        ∧ Yields (rest value) between result next := by
  unfold Yields
  rw [StateT.run_bind]
  cases reader.run cursor with
  | error e => simp [bind, Except.bind]
  | ok pair => simp [bind, Except.bind, ← Prod.exists']

@[simp] theorem yields_throw {e : FormatError} {result : α} :
    ¬Yields (throw e) cursor result next := by
  intro h
  have h : Except.error e = Except.ok (result, next) := h
  contradiction

theorem run_bind_ok {reader : Reader α} {rest : α → Reader β} {value : α}
    (h : reader.run cursor = .ok (value, next)) :
    (reader >>= rest).run cursor = (rest value).run next := by
  rw [StateT.run_bind, h]
  rfl

theorem run_bind_error {reader : Reader α} {rest : α → Reader β} {e : FormatError}
    (h : reader.run cursor = .error e) : (reader >>= rest).run cursor = .error e := by
  rw [StateT.run_bind, h]
  rfl

/-- A sequence of readers fails where one of them does. -/
theorem run_bind_eq_error_iff {reader : Reader α} {rest : α → Reader β} {e : FormatError} :
    (reader >>= rest).run cursor = .error e
      ↔ reader.run cursor = .error e
        ∨ ∃ value between, reader.Yields cursor value between
          ∧ (rest value).run between = .error e := by
  cases hrun : reader.run cursor with
  | error fault =>
    rw [run_bind_error hrun]
    simp only [Except.error.injEq]
    constructor
    · exact .inl
    · rintro (h | ⟨value, between, hyields, -⟩)
      · exact h
      · rw [Yields, hrun] at hyields
        contradiction
  | ok pair =>
    obtain ⟨value, between⟩ := pair
    rw [run_bind_ok hrun]
    constructor
    · exact fun h => .inr ⟨value, between, hrun, h⟩
    · rintro (h | ⟨value', between', hyields, h⟩)
      · contradiction
      · rw [Yields, hrun] at hyields
        cases hyields
        exact h

/-- A check lets the rest of a reader pass exactly when it finds no fault. -/
theorem yields_check {fault : Prop} [Decidable fault] {e : FormatError} {rest : Unit → Reader α}
    {otherwise : Reader α} {result : α} :
    Yields (if fault then throw e >>= rest else otherwise) cursor result next
      ↔ ¬fault ∧ Yields otherwise cursor result next := by
  by_cases h : fault
  · rw [if_pos h, yields_bind]
    simp [h]
  · simp [h]

/-! ## Primitive readers -/

@[simp] theorem yields_get {value : Cursor} :
    Yields get cursor value next ↔ value = cursor ∧ next = cursor := by
  show Except.ok (cursor, cursor) = Except.ok (value, next) ↔ _
  simp only [Except.ok.injEq, Prod.mk.injEq, eq_comm]

theorem run_take_of_le {n : Nat} (henough : n ≤ cursor.remaining) :
    (take n).run cursor = .ok (cursor.rest.take n, cursor.advance n) :=
  if_neg (Nat.not_lt.2 henough)

theorem run_take_of_lt {n : Nat} (hfew : cursor.remaining < n) :
    (take n).run cursor = .error (.truncated cursor.position (n - cursor.remaining)) :=
  if_pos hfew

theorem yields_take {n : Nat} {bytes : Bytes} :
    (take n).Yields cursor bytes next ↔ bytes.length = n ∧ cursor.Passes bytes next := by
  have hlen := cursor.length_rest
  unfold Yields
  constructor
  · intro h
    by_cases hfew : cursor.remaining < n
    · rw [run_take_of_lt hfew] at h
      contradiction
    · rw [run_take_of_le (Nat.not_lt.1 hfew)] at h
      cases h
      have htaken : (cursor.rest.take n).length = n := by
        rw [List.length_take]
        omega
      refine ⟨htaken, ?_, ?_⟩
      · exact (List.take_append_drop n cursor.rest).symm
      · rw [htaken, Cursor.position_advance]
  · rintro ⟨rfl, h⟩
    have henough : bytes.length ≤ cursor.remaining := by
      rw [h.remaining]
      omega
    simp only [run_take_of_le henough, Except.ok.injEq, Prod.mk.injEq]
    refine ⟨by rw [h.1, List.take_left], Cursor.ext ?_ ?_⟩
    · exact h.2.symm
    · rw [Cursor.rest_advance, h.1, List.drop_left]

/-- Skipping bytes is taking them and giving none back. -/
theorem skip_eq_take (n : Nat) : skip n = (do let _ ← take n; return ()) := by
  funext cursor
  simp only [skip, take, bind, StateT.bind]
  split <;> rfl

theorem yields_skip {n : Nat} {done : Unit} :
    (skip n).Yields cursor done next
      ↔ ∃ bytes : Bytes, bytes.length = n ∧ cursor.Passes bytes next := by
  rw [skip_eq_take, yields_bind]
  simp only [yields_take, yields_pure]
  grind

theorem yields_u1 {b : UInt8} : u1.Yields cursor b next ↔ cursor.Passes [b] next := by
  simp only [u1, yields_bind, yields_take, yields_pure]
  constructor
  · rintro ⟨bytes, between, ⟨hlen, hbytes⟩, rfl, rfl⟩
    obtain ⟨b, rfl⟩ := List.length_eq_one_iff.1 hlen
    have hb : UInt8.ofNat (Bytes.toNatBE [b]) = b := by
      simp [Bytes.toNatBE]
    rw [hb]
    exact hbytes
  · intro h
    refine ⟨[b], next, ⟨rfl, h⟩, ?_, rfl⟩
    simp [Bytes.toNatBE]

theorem yields_u2 {n : UInt16} :
    u2.Yields cursor n next ↔ cursor.Passes (Piece.word n) next := by
  simp only [u2, yields_bind, yields_take, yields_pure]
  constructor
  · rintro ⟨bytes, between, ⟨hlen, hbytes⟩, rfl, rfl⟩
    have hlt := Bytes.toNatBE_lt bytes
    have hspell := Bytes.ofNatBE_toNatBE bytes
    rw [hlen] at hlt hspell
    rw [Piece.word, UInt16.toNat_ofNat', Nat.mod_eq_of_lt hlt, hspell]
    exact hbytes
  · intro h
    refine ⟨Piece.word n, next, ⟨Piece.length_word n, h⟩, ?_, rfl⟩
    rw [Piece.word, Bytes.toNatBE_ofNatBE n.toNat_lt, UInt16.ofNat_toNat]

theorem yields_u4 {n : Nat} :
    u4.Yields cursor n next ↔ n < 4294967296 ∧ cursor.Passes (Bytes.ofNatBE 4 n) next := by
  simp only [u4, yields_bind, yields_take, yields_pure]
  constructor
  · rintro ⟨bytes, between, ⟨hlen, hbytes⟩, rfl, rfl⟩
    have hlt := Bytes.toNatBE_lt bytes
    have hspell := Bytes.ofNatBE_toNatBE bytes
    rw [hlen] at hlt hspell
    rw [hspell]
    exact ⟨hlt, hbytes⟩
  · rintro ⟨hlt, h⟩
    refine ⟨Bytes.ofNatBE 4 n, next, ⟨Bytes.length_ofNatBE 4 n, h⟩, ?_, rfl⟩
    rw [Bytes.toNatBE_ofNatBE hlt]

@[simp] theorem yields_position {n : Nat} :
    position.Yields cursor n next ↔ n = cursor.position ∧ next = cursor := by
  simp only [position, yields_bind, yields_get, yields_pure]
  grind

/-! ## Repetition -/

/-- What becomes of a value when items that follow each other from a position on are met in turn. -/
def walk {ι : Type} (spell : ι → Bytes) (update : Nat → ι → α → α) :
    (position : Nat) → List ι → α → α
  | _, [], value => value
  | position, item :: rest, value =>
    walk spell update (position + (spell item).length) rest (update position item value)

/-- A step that reads one item, repeated, reads as many items as it is repeated. -/
theorem yields_iterate {ι : Type} {step : α → Reader α} {spell : ι → Bytes}
    {update : Nat → ι → α → α}
    (hstep : ∀ value cursor result next, (step value).Yields cursor result next
      ↔ ∃ item, cursor.Passes (spell item) next ∧ result = update cursor.position item value)
    {count : Nat} {value result : α} :
    (iterate step count value).Yields cursor result next
      ↔ ∃ items : List ι, items.length = count ∧ cursor.Passes (items.flatMap spell) next
        ∧ result = walk spell update cursor.position items value := by
  induction count generalizing value cursor with
  | zero =>
    simp only [iterate, yields_pure, List.length_eq_zero_iff]
    constructor
    · rintro ⟨rfl, rfl⟩
      exact ⟨[], rfl, Cursor.passes_nil.2 rfl, rfl⟩
    · rintro ⟨items, rfl, hpass, rfl⟩
      exact ⟨rfl, Cursor.passes_nil.1 hpass⟩
  | succ count ih =>
    simp only [iterate, yields_bind, hstep, ih]
    constructor
    -- the cursor behind an item is where the next one begins, so the positions agree
    · rintro ⟨value', between, ⟨item, hitem, rfl⟩, items, rfl, hitems, rfl⟩
      refine ⟨item :: items, rfl, ?_, ?_⟩
      · exact Cursor.passes_append.2 ⟨between, hitem, hitems⟩
      · rw [walk, hitem.position]
    · rintro ⟨items, hlen, hpass, rfl⟩
      obtain ⟨item, items, rfl⟩ := List.exists_cons_of_length_eq_add_one hlen
      obtain ⟨between, hitem, hitems⟩ := Cursor.passes_append.1 hpass
      refine ⟨_, between, ⟨item, hitem, rfl⟩, items, Nat.succ.inj hlen, hitems, ?_⟩
      rw [walk, hitem.position]

end Reader

end Reline.ClassFile
