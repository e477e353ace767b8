/-
  Reline.Zip.Record

  The records of a zip archive: their signatures, and reading their fields.
-/

import Reline.Bytes
import Reline.Zip.Error

namespace Reline.Zip

/-! ## Signatures -/

/-- The signature of the record in front of an entry's data. -/
def localSignature : Nat := 0x04034B50

/-- The signature of a directory record. -/
def directorySignature : Nat := 0x02014B50

/-- The signature of an end record, as it stands in a file. -/
def endSignature : Bytes := [0x50, 0x4B, 0x05, 0x06]

/-! ## Fields -/

/-- The fault of a file that ends inside a record. -/
def cutShort : Error := .io .endOfFile

/-- The next `n` bytes and those behind them. -/
def takeBytes (n : Nat) (bytes : Bytes) : Except Error (Bytes × Bytes) :=
  let head := bytes.take n
  if head.length < n then .error cutShort else .ok (head, bytes.drop n)

/-- The number in a window of a record. -/
def word (record : Bytes) (offset width : Nat) : Nat :=
  Bytes.toNatLE (record.slice offset width)

end Reline.Zip
