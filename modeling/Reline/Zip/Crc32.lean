/-
  Reline.Zip.Crc32

  The checksum of zip entries: the remainder of the data by a polynomial of
  degree 32, both with reflected bits and complemented ends.
-/

import Reline.Bytes

namespace Reline.Zip

/-- The polynomial without its leading term, reflected. -/
def crcPolynomial : UInt32 := 0xEDB88320

/-- Divides by one more bit. -/
def crcBit (crc : UInt32) : UInt32 :=
  if crc &&& 1 = 1 then (crc >>> 1) ^^^ crcPolynomial else crc >>> 1

/-- Divides by one more byte. -/
def crcByte (crc : UInt32) (b : UInt8) : UInt32 :=
  crcBit (crcBit (crcBit (crcBit (crcBit (crcBit (crcBit (crcBit (crc ^^^ b.toUInt32))))))))

/-- The checksum of a byte sequence. -/
def crc32 (bytes : Bytes) : UInt32 :=
  ~~~(bytes.foldl crcByte 0xFFFFFFFF)

end Reline.Zip
