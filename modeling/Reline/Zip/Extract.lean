/-
  Reline.Zip.Extract

  The data of zip entries.

  An entry is opened before its data is read: opening checks that its data can be
  found and that its method is known, reading decompresses the data and compares
  the checksum. The size in the directory is not checked.
-/

import Reline.Zip.Crc32
import Reline.Zip.Directory
import Reline.Zip.Inflate

namespace Reline.Zip

/-- The number of bytes of the record in front of an entry's data without its name and extra
fields. -/
def localRecordSize : Nat := 30

namespace Entry

/-- The compressed data of an entry in a file; fewer bytes than announced if the file ends. -/
def compressed (e : Entry) (file : Buffer) : Except Error Bytes := do
  let record := file.window e.recordOffset localRecordSize
  let (signature, rest) ← takeBytes 4 record
  if Bytes.toNatLE signature ≠ localSignature then throw .badLocalRecord
  let (fixed, _) ← takeBytes (localRecordSize - 4) rest
  let named := word fixed 22 2 + word fixed 24 2
  return file.window (e.recordOffset + localRecordSize + named) e.compressedSize

/-- Opens an entry of a file, giving its compressed data. -/
def openIn (e : Entry) (file : Buffer) : Except Error Bytes := do
  if e.encrypted then throw .encrypted
  let data ← e.compressed file
  match e.method with
  | .other _ => throw .unknownMethod
  | .stored | .deflated => return data

/-- The error of a stream that cannot be decompressed. -/
def ofFault : Inflate.Fault → IoError
  | .corrupt => .corruptDeflate
  | .incomplete => .incompleteDeflate

/-- The data of an entry that was opened. -/
def decode (e : Entry) (compressed : Bytes) : Except IoError Bytes := do
  let data ← match e.method with
    | .deflated => (inflate compressed).mapError ofFault
    | .stored | .other _ => pure compressed
  if (crc32 data).toNat = e.crc then return data else throw .invalidChecksum

/-- The data of an entry of a file. -/
def read (e : Entry) (file : Buffer) : Except Error Bytes := do
  (e.decode (← e.openIn file)).mapError .io

end Entry

end Reline.Zip
