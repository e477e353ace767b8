/-
  Reline.Zip.Deflate.BitWriter

  Sequences of bits, from which bytes are made up.

  The bits of a number are written from the lowest on, and fill each byte from
  its lowest bit on.
-/

import Reline.Bytes

namespace Reline.Zip.Deflate

/-- Bits that have been written. -/
structure BitWriter where
  /-- The bytes that are full. -/
  bytes : Array UInt8
  /-- The number that the bits behind them spell. -/
  pending : Nat
  /-- How many bits are behind them, fewer than eight. -/
  count : Nat
deriving Repr

namespace BitWriter

/-- No bits. -/
def empty : BitWriter := ⟨#[], 0, 0⟩

/-- Moves some bytes from the front of the pending bits to the full ones. -/
def moveBytes : (n : Nat) → Array UInt8 → Nat → Array UInt8 × Nat
  | 0, bytes, pending => (bytes, pending)
  | n + 1, bytes, pending => moveBytes n (bytes.push (UInt8.ofNat pending)) (pending >>> 8)

/-- Writes a number of `width` bits. -/
def put (writer : BitWriter) (value width : Nat) : BitWriter :=
  let count := writer.count + width
  let (bytes, pending) :=
    moveBytes (count / 8) writer.bytes (writer.pending + value <<< writer.count)
  ⟨bytes, pending, count % 8⟩

/-- Writes zeros up to the end of a byte. -/
def pad (writer : BitWriter) : BitWriter :=
  if writer.count = 0 then writer else writer.put 0 (8 - writer.count)

/-- Writes bytes behind bits that are full bytes. -/
def putBytes (writer : BitWriter) (bytes : Array UInt8) : BitWriter :=
  { writer with bytes := writer.bytes ++ bytes }

end BitWriter

end Reline.Zip.Deflate
