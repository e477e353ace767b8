/-
  Reline.Proofs.Zip.FixedCodes

  The codes of short blocks.

  Codes of one length are given in a row, so the fixed code for bytes and lengths
  is made up of four rows. A short block is written in this code whatever it
  holds.
-/

import Reline.Zip.Deflate

namespace Reline.Zip.Deflate

/-! ## Codes in a row -/

/-- Gives a symbol of some length the next code of that length. -/
def giveWord (given : Array (Nat × Nat) × Array Nat) (length : Nat) :
    Array (Nat × Nat) × Array Nat :=
  if length = 0 then (given.1.push (0, 0), given.2)
  else
    (given.1.push (reverseBits length (given.2.getD length 0), length),
      given.2.setIfInBounds length (given.2.getD length 0 + 1))

/-- The first code of each length. -/
def nextCodes (lengths : List Nat) : Array Nat :=
  (0 :: firstCodes 0
    ((List.range Inflate.Code.maxLength).map fun i => lengths.count (i + 1))).toArray

theorem codeWords_toArray (lengths : List Nat) :
    codeWords lengths.toArray = (lengths.foldl giveWord (#[], nextCodes lengths)).1 := by
  rw [codeWords, List.foldl_toArray]
  rfl

/-- Symbols of one length have codes in a row. -/
theorem foldl_giveWord_replicate {length code : Nat} (hlength : length ≠ 0) (count : Nat)
    (words : Array (Nat × Nat)) {next : Array Nat} (hnext : next[length]? = some code) :
    (List.replicate count length).foldl giveWord (words, next)
      = (words ++ (List.range' code count).map fun code => (reverseBits length code, length),
        next.setIfInBounds length (code + count)) := by
  obtain ⟨hbound, hget⟩ := Array.getElem?_eq_some_iff.1 hnext
  induction count generalizing words next code with
  | zero =>
    have hkept : next.setIfInBounds length code = next := by
      apply Array.ext_getElem?
      intro i
      rw [Array.getElem?_setIfInBounds]
      split
      case isTrue heq => rw [← heq, hnext]
      case isFalse => rfl
    simp [hkept]
  | succ count ih =>
    have hcode : next.getD length 0 = code := by
      rw [Array.getD_eq_getD_getElem?, hnext, Option.getD_some]
    have hafter : (next.setIfInBounds length (code + 1))[length]? = some (code + 1) :=
      Array.getElem?_setIfInBounds_self_of_lt hbound
    obtain ⟨hbound', hget'⟩ := Array.getElem?_eq_some_iff.1 hafter
    rw [List.replicate_succ, List.foldl_cons, giveWord, if_neg hlength, hcode,
      ih _ hafter hbound' hget', List.range'_succ, List.map_cons,
      Array.setIfInBounds_setIfInBounds, Nat.add_assoc, Nat.add_comm 1]
    simp

/-! ## The fixed code -/

/-- The codes of bytes and lengths in the fixed code, with their lengths. -/
def fixedWords : Array (Nat × Nat) :=
  ((List.range' 48 144).map (fun code => (reverseBits 8 code, 8))
    ++ (List.range' 400 112).map (fun code => (reverseBits 9 code, 9))
    ++ (List.range' 0 24).map (fun code => (reverseBits 7 code, 7))
    ++ (List.range' 192 8).map (fun code => (reverseBits 8 code, 8))).toArray

theorem codeWords_fixedLiterals : codeWords Inflate.fixedLiterals.toArray = fixedWords := by
  have hnext : nextCodes Inflate.fixedLiterals
      = #[0, 0, 0, 0, 0, 0, 0, 0, 48, 400, 1024, 2048, 4096, 8192, 16384, 32768] := by
    simp only [nextCodes, Inflate.fixedLiterals, List.count_append, List.count_replicate]
    rfl
  rw [codeWords_toArray, hnext, Inflate.fixedLiterals, List.foldl_append, List.foldl_append,
    List.foldl_append, foldl_giveWord_replicate (by decide) 144 _ rfl,
    foldl_giveWord_replicate (by decide) 112 _ rfl, foldl_giveWord_replicate (by decide) 24 _ rfl,
    foldl_giveWord_replicate (by decide) 8 _ rfl]
  simp [fixedWords]

/-- A single short block is written in the fixed code. -/
theorem encodeBlocks_short (data : Buffer) {block : Block} (h : block.size ≤ compressedUpTo) :
    encodeBlocks data #[block] = (((BitWriter.empty.put 1 1).put 1 2).putTokens fixedWords
      (codeWords Inflate.fixedDistances.toArray) block.tokens).pad.bytes.toList := by
  have hfixed : block.size < ownCodesFrom := Nat.lt_of_le_of_lt h (by decide)
  have hkept : ∀ writer : BitWriter, writer.putBlock data block true
      = (writer.put 1 1).putCompressed block := by
    intro writer
    simp [BitWriter.putBlock, Nat.not_lt.2 h]
  simp [encodeBlocks, hkept, BitWriter.putCompressed, hfixed, codeWords_fixedLiterals]

end Reline.Zip.Deflate
