/-
  Reline.Proofs.Zip.Deflate

  Deflate streams give their data back.

  A stream of compressed data is only taken if it gives the data back, so what
  is left is that stored blocks do. Each block is read in one turn, and there
  are fewer blocks than bits in the stream.
-/

import Reline.Zip.Deflate

namespace Reline.Zip

namespace Inflate

/-! ## Stored blocks -/

theorem BitCursor.bit_cons {b : UInt8} {more : Bytes} {used : Nat} (h : used ≠ 7) :
    BitCursor.bit ⟨b :: more, used⟩ = .ok ((b.toNat >>> used) % 2, ⟨b :: more, used + 1⟩) := by
  rw [BitCursor.bit]
  dsimp only
  rw [if_neg h]

/-- A block in front of other bytes is read whole, behind three bits of its first byte. -/
theorem storedOnto_block (out : Array UInt8) (header : UInt8) {block : Bytes}
    (hblock : block.length ≤ 65535) (rest : Bytes) :
    storedOnto out ⟨header :: (Bytes.ofNatLE 2 block.length
        ++ Bytes.ofNatLE 2 (65535 - block.length) ++ block ++ rest), 3⟩
      = .ok (out ++ block, ⟨rest, 0⟩) := by
  have hlength := Bytes.toNatLE_ofNatLE 2 block.length (show _ < 65536 by omega)
  have hcomplement := Bytes.toNatLE_ofNatLE 2 (65535 - block.length) (show _ < 65536 by omega)
  simp only [Bytes.ofNatLE] at hlength hcomplement ⊢
  simp only [storedOnto, BitCursor.align, List.cons_append, List.nil_append, List.drop_succ_cons,
    List.drop_zero]
  rw [if_neg (by decide)]
  dsimp only
  rw [hlength, hcomplement, if_neg (by omega), List.take_left, if_neg (Nat.lt_irrefl _),
    List.drop_left]
  rfl

end Inflate

namespace Deflate

open Inflate

/-- The one block of data that is not too long. -/
theorem stored_of_le {data : Bytes} (h : data.length ≤ 65535) :
    stored data = 1 :: (Bytes.ofNatLE 2 data.length ++ Bytes.ofNatLE 2 (65535 - data.length)
      ++ data ++ []) := by
  rw [stored]
  simp only [storedLimit, h, List.take_of_length_le, if_true, List.append_assoc]

/-- The first block of data that is too long for one. -/
theorem stored_of_lt {data : Bytes} (h : 65535 < data.length) :
    stored data = 0 :: (Bytes.ofNatLE 2 (data.take 65535).length
      ++ Bytes.ofNatLE 2 (65535 - (data.take 65535).length) ++ data.take 65535
      ++ stored (data.drop 65535)) := by
  have hnot : ¬ data.length ≤ 65535 := Nat.not_le.2 h
  rw [stored]
  simp only [storedLimit, hnot, List.append_assoc]
  rfl

theorem length_le_length_stored (data : Bytes) : data.length ≤ (stored data).length := by
  induction hn : data.length using Nat.strongRecOn generalizing data with
  | ind n ih =>
    by_cases hle : data.length ≤ 65535
    · simp only [stored_of_le hle, List.length_cons, List.length_append]
      omega
    · have hlt := Nat.not_le.1 hle
      -- the first block takes 65535 bytes, and those behind it are fewer than before
      have hrest := ih _ (by rw [List.length_drop]; omega) (data.drop 65535) rfl
      simp only [stored_of_lt hlt, List.length_cons, List.length_append, List.length_take,
        List.length_drop] at hrest ⊢
      omega

/-- A turn reads a stored block, the last one or one in front of others. -/
theorem blocksOnto_block (turns : Nat) (out : Array UInt8) {block : Bytes}
    (hblock : block.length ≤ 65535) (rest : Bytes) (last : Bool) :
    blocksOnto (turns + 1) out ⟨(if last then 1 else 0) :: (Bytes.ofNatLE 2 block.length
        ++ Bytes.ofNatLE 2 (65535 - block.length) ++ block ++ rest), 0⟩
      = if last then .ok (out ++ block) else blocksOnto turns (out ++ block) ⟨rest, 0⟩ := by
  have hread := storedOnto_block out (if last then 1 else 0) hblock rest
  generalize hheader : (if last then 1 else 0 : UInt8) = header at hread ⊢
  generalize Bytes.ofNatLE 2 block.length ++ Bytes.ofNatLE 2 (65535 - block.length) ++ block ++ rest
    = more at hread ⊢
  -- the first bit says whether the block is the last one, the next two that it is stored
  have hbit : BitCursor.bit ⟨header :: more, 0⟩
      = .ok (if last then 1 else 0, ⟨header :: more, 1⟩) := by
    rw [BitCursor.bit_cons (by decide), ← hheader]
    cases last <;> rfl
  have hbits : BitCursor.bits 2 ⟨header :: more, 1⟩ = .ok (0, ⟨header :: more, 3⟩) := by
    rw [BitCursor.bits, BitCursor.bit_cons (by decide)]
    dsimp only
    rw [BitCursor.bits, BitCursor.bit_cons (by decide), ← hheader]
    cases last <;> rfl
  rw [blocksOnto, hbit]
  dsimp only [bind, Except.bind]
  rw [hbits]
  dsimp only
  rw [blockOnto, hread]
  cases last <;> rfl

/-- Stored blocks are read as the data in them. -/
theorem blocksOnto_stored (data : Bytes) {turns : Nat} (hturns : data.length < turns)
    (out : Array UInt8) : blocksOnto turns out ⟨stored data, 0⟩ = .ok (out ++ data) := by
  induction hn : data.length using Nat.strongRecOn generalizing data turns out with
  | ind n ih =>
    obtain ⟨turns, rfl⟩ : ∃ t, turns = t + 1 := ⟨turns - 1, by omega⟩
    by_cases hle : data.length ≤ 65535
    · rw [stored_of_le hle]
      exact blocksOnto_block turns out hle [] true
    · have hlt := Nat.not_le.1 hle
      have hblock : (data.take 65535).length ≤ 65535 := List.length_take_le ..
      -- the first turn reads the first block, the turns that are left read the others
      have hfirst := blocksOnto_block turns out hblock (stored (data.drop 65535)) false
      have hlength : (data.drop 65535).length < turns := by rw [List.length_drop]; omega
      have hrest := ih _ (by rw [List.length_drop]; omega) (data.drop 65535) hlength
        (out ++ data.take 65535) rfl
      rw [stored_of_lt hlt]
      refine hfirst.trans (hrest.trans ?_)
      apply congrArg Except.ok
      apply Array.toList_inj.1
      rw [Array.toList_appendList, Array.toList_appendList, Array.toList_appendList,
        List.append_assoc, List.take_append_drop]

end Deflate

/-- A stream of data gives the data back. -/
theorem inflate_deflate (data : Bytes) : inflate (deflate data) = .ok data := by
  rw [deflate]
  split
  case isTrue hgives =>
    rw [Deflate.givesBack] at hgives
    split at hgives
    case h_1 found hfound =>
      rw [hfound, of_decide_eq_true hgives]
    case h_2 => contradiction
  case isFalse =>
    have hturns := Deflate.length_le_length_stored data
    rw [inflate, Deflate.blocksOnto_stored data (by omega)]
    simp [Except.map]

end Reline.Zip
