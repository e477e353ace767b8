/-
  Reline.Bytes

  Byte sequences and the fixed-width words written in them.

  A byte sequence is a list, so that taking, dropping and joining are the list
  operations and their laws; what a file holds is a buffer, of which any window
  can be read as a sequence. Class files store words most significant byte
  first, zip archives least significant byte first; readers of both orders are
  total on lists of any length.
-/

namespace Reline

/-- A sequence of bytes. -/
abbrev Bytes := List UInt8

namespace Bytes

/-! ## Most significant byte first -/

/-- The number that the bytes spell, most significant first. -/
def toNatBE (bytes : Bytes) : Nat :=
  bytes.foldl (fun n b => n * 256 + b.toNat) 0

/-! ## Least significant byte first -/

/-- The number that the bytes spell, least significant first. -/
def toNatLE : Bytes → Nat
  | [] => 0
  | b :: rest => b.toNat + 256 * toNatLE rest

/-- The lowest `width` bytes of a number, least significant first. -/
def ofNatLE : (width : Nat) → Nat → Bytes
  | 0, _ => []
  | width + 1, n => UInt8.ofNat n :: ofNatLE width (n / 256)

@[simp] theorem length_ofNatLE (width n : Nat) : (ofNatLE width n).length = width := by
  induction width generalizing n with
  | zero => rfl
  | succ width ih => simp [ofNatLE, ih]

/-- A number that fits its width is read back. -/
theorem toNatLE_ofNatLE (width n : Nat) (h : n < Nat.pow 256 width) :
    toNatLE (ofNatLE width n) = n := by
  induction width generalizing n with
  | zero =>
    have : n = 0 := Nat.lt_one_iff.1 h
    simp [ofNatLE, toNatLE, this]
  | succ width ih =>
    have hd : n / 256 < Nat.pow 256 width := (Nat.div_lt_iff_lt_mul (by decide)).2 h
    simp only [ofNatLE, toNatLE, UInt8.toNat_ofNat', ih _ hd]
    omega

/-- The `len` bytes from `offset` on, fewer where the sequence ends before. -/
def slice (bytes : Bytes) (offset len : Nat) : Bytes :=
  (bytes.drop offset).take len

end Bytes

/-! ## Buffers -/

/-- Bytes that can be reached by their positions. -/
abbrev Buffer := Array UInt8

namespace Buffer

/-- The `len` bytes from `offset` on, fewer where the buffer ends before. -/
def window (buffer : Buffer) (offset len : Nat) : Bytes :=
  (buffer.extract offset (offset + len)).toList

/-- The bytes from `offset` on. -/
def suffix (buffer : Buffer) (offset : Nat) : Bytes :=
  (buffer.extract offset buffer.size).toList

/-- A window is a slice of the bytes. -/
theorem window_eq_slice (buffer : Buffer) (offset len : Nat) :
    buffer.window offset len = Bytes.slice buffer.toList offset len := by
  simp [window, Bytes.slice, List.extract_eq_take_drop]

/-- A suffix is what is left when the bytes in front are dropped. -/
theorem suffix_eq_drop (buffer : Buffer) (offset : Nat) :
    buffer.suffix offset = buffer.toList.drop offset := by
  rw [suffix, Array.toList_extract, List.extract_eq_take_drop]
  exact List.take_of_length_le (by simp)

/-- The buffer with `len` bytes: what is behind them is cut off, what is missing is zero. -/
def resize (buffer : Buffer) (len : Nat) : Buffer :=
  if buffer.size = len then buffer
  else buffer.take len ++ Array.replicate (len - buffer.size) 0

/-- The buffer with bytes written over it from an offset on; what is missing in front of them is
zero. No bytes leave it as it is. -/
def overwrite (buffer : Buffer) (offset : Nat) (bytes : Bytes) : Buffer :=
  if bytes.isEmpty then buffer
  else
    let behind := buffer.suffix (offset + bytes.length)
    buffer.resize offset ++ bytes ++ behind

/-- Bytes written to an empty buffer are all that it has. -/
@[simp] theorem overwrite_empty (bytes : Bytes) :
    overwrite #[] 0 bytes = bytes.toArray := by
  cases bytes <;> simp [overwrite, resize, suffix]

end Buffer

end Reline
