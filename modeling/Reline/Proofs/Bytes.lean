/-
  Reline.Proofs.Bytes

  Words and the bytes that spell them.

  Reading a word and writing it undo each other in both orders of bytes, so a
  reader's result determines the bytes that it took.
-/

import Mathlib
import Reline.Bytes

namespace Reline.Bytes

/-! ## Least significant byte first -/

theorem toNatLE_lt (bytes : Bytes) : toNatLE bytes < Nat.pow 256 bytes.length := by
  induction bytes with
  | nil => exact Nat.one_pos
  | cons b rest ih =>
    have hb : b.toNat < 256 := b.toNat_lt
    have hpow : Nat.pow 256 (rest.length + 1) = Nat.pow 256 rest.length * 256 := rfl
    rw [toNatLE, List.length_cons, hpow]
    omega

/-- Bytes are those of the number that they spell. -/
theorem ofNatLE_toNatLE (bytes : Bytes) : ofNatLE bytes.length (toNatLE bytes) = bytes := by
  induction bytes with
  | nil => rfl
  | cons b rest ih =>
    have hb : b.toNat < 256 := b.toNat_lt
    -- the first byte is the remainder by 256, the others are those of the quotient
    have hlow : UInt8.ofNat (b.toNat + 256 * toNatLE rest) = b := by
      apply UInt8.toNat.inj
      rw [UInt8.toNat_ofNat']
      omega
    have hhigh : (b.toNat + 256 * toNatLE rest) / 256 = toNatLE rest := by omega
    rw [toNatLE, List.length_cons, ofNatLE, hlow, hhigh, ih]

/-! ## Most significant byte first -/

/-- The lowest `width` bytes of a number, most significant first. -/
def ofNatBE (width n : Nat) : Bytes :=
  (ofNatLE width n).reverse

@[simp] theorem length_ofNatBE (width n : Nat) : (ofNatBE width n).length = width := by
  rw [ofNatBE, List.length_reverse, length_ofNatLE]

/-- Both orders spell the same number. -/
theorem toNatBE_reverse (bytes : Bytes) : toNatBE bytes.reverse = toNatLE bytes := by
  induction bytes with
  | nil => rfl
  | cons b rest ih =>
    rw [toNatBE] at ih
    rw [toNatBE, List.reverse_cons, List.foldl_append, ih, toNatLE]
    simp only [List.foldl_cons, List.foldl_nil]
    omega

theorem toNatBE_lt (bytes : Bytes) : toNatBE bytes < Nat.pow 256 bytes.length := by
  have h := toNatLE_lt bytes.reverse
  rwa [← toNatBE_reverse, List.reverse_reverse, List.length_reverse] at h

/-- A number that fits its width is read back. -/
theorem toNatBE_ofNatBE {width n : Nat} (h : n < Nat.pow 256 width) :
    toNatBE (ofNatBE width n) = n := by
  rw [ofNatBE, toNatBE_reverse, toNatLE_ofNatLE width n h]

/-- Bytes are those of the number that they spell. -/
theorem ofNatBE_toNatBE (bytes : Bytes) : ofNatBE bytes.length (toNatBE bytes) = bytes := by
  have h := ofNatLE_toNatLE bytes.reverse
  rw [← toNatBE_reverse, List.reverse_reverse, List.length_reverse] at h
  rw [ofNatBE, h, List.reverse_reverse]

/-- The two bytes of a word, by its halves. -/
theorem ofNatBE_two (word : UInt16) :
    ofNatBE 2 word.toNat = [(word >>> 8).toUInt8, word.toUInt8] := by
  have hhigh : UInt8.ofNat (word.toNat / 256) = (word >>> 8).toUInt8 := by
    apply UInt8.toNat.inj
    simp [Nat.shiftRight_eq_div_pow]
  have hlow : UInt8.ofNat word.toNat = word.toUInt8 := by
    apply UInt8.toNat.inj
    simp
  simp only [ofNatBE, ofNatLE, hhigh, hlow, List.reverse_cons, List.reverse_nil, List.nil_append,
    List.cons_append]

end Reline.Bytes
