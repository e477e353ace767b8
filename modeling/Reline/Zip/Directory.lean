/-
  Reline.Zip.Directory

  The directory of a zip archive.

  The directory stands at the end of the file, in front of an end record that is
  searched for backwards. If the end record stands further back in the file than
  its numbers say, everything is shifted by the difference: data may be put in
  front of an archive.
-/

import Reline.Text.Codepage437
import Reline.Text.Utf8
import Reline.Zip.Method

namespace Reline.Zip

/-! ## Entries -/

/-- What the directory says about an entry. -/
structure Entry where
  /-- The name of the entry. -/
  name : String
  /-- How its data is compressed. -/
  method : Method
  /-- Whether its data is encrypted. -/
  encrypted : Bool
  /-- The date of the last change, packed as in MS-DOS. -/
  date : Nat
  /-- The time of the last change, packed as in MS-DOS. -/
  time : Nat
  /-- The checksum of the data. -/
  crc : Nat
  /-- The number of bytes of the compressed data. -/
  compressedSize : Nat
  /-- The number of bytes of the data. -/
  size : Nat
  /-- The system whose attributes the entry has. -/
  system : Nat
  /-- The attributes. -/
  attributes : Nat
  /-- Where the record in front of the data stands in the file. -/
  recordOffset : Nat
deriving DecidableEq, Repr

/-- The mode of an entry of another system: from its directory and read-only bits. -/
def dosMode (attributes : Nat) : Nat :=
  let mode := if attributes &&& 0x10 = 0x10 then 0o40775 else 0o100664
  if attributes &&& 0x01 = 0x01 then mode &&& 0o555 else mode

/-- The Unix mode of an entry, if its attributes give one. -/
def Entry.mode? (e : Entry) : Option Nat :=
  if e.attributes = 0 then none
  else if e.system = 3 then some (e.attributes >>> 16)
  else if e.system = 0 then some (dosMode e.attributes)
  else none

/-- The entries of an archive in the order of its directory, and its comment. -/
structure Directory where
  entries : List Entry
  comment : Bytes
deriving DecidableEq, Repr

/-- The entry with a name; of several the last. -/
def Directory.find? (directory : Directory) (name : String) : Option Entry :=
  directory.entries.reverse.find? (·.name = name)

/-! ## The end record -/

/-- The number of bytes of an end record without its comment. -/
def endRecordSize : Nat := 22

/-- The offset of the last end signature that begins at `offset` or later, among the first `windows`
offsets; `found` is the last one before. -/
def lastSignature (found : Option Nat) (offset windows : Nat) : Bytes → Option Nat
  | [] => found
  | b :: rest =>
    match windows with
    | 0 => found
    | windows + 1 =>
      let found := if endSignature.isPrefixOf (b :: rest) then some offset else found
      lastSignature found (offset + 1) windows rest

/-- What the end record of an archive says. -/
structure EndRecord where
  /-- Where the record stands. -/
  offset : Nat
  /-- The number of this disk. -/
  disk : Nat
  /-- The number of the disk that holds the directory. -/
  directoryDisk : Nat
  /-- How many entries there are on this disk. -/
  count : Nat
  /-- How many entries there are on all disks. -/
  totalCount : Nat
  /-- The number of bytes of the directory. -/
  directorySize : Nat
  /-- Where the directory begins. -/
  directoryOffset : Nat
  /-- The comment of the archive. -/
  comment : Bytes

/-- The end record of a file: the last one that leaves room for its fixed part and begins at most
65535 bytes in front of that place. -/
def EndRecord.read (file : Buffer) : Except Error EndRecord :=
  let size := file.size
  if size < endRecordSize then .error .tooShort
  else
    let last := size - endRecordSize
    let first := last - 65535
    match lastSignature none first (last - first + 1) (file.suffix first) with
    | none => .error .noEndRecord
    | some offset => do
      let (fixed, rest) ← takeBytes endRecordSize (file.suffix offset)
      let (comment, _) ← takeBytes (word fixed 20 2) rest
      return {
        offset
        disk := word fixed 4 2
        directoryDisk := word fixed 6 2
        count := word fixed 8 2
        totalCount := word fixed 10 2
        directorySize := word fixed 12 4
        directoryOffset := word fixed 16 4
        comment }

/-- Whether a field holds the greatest value, which says that the true one stands elsewhere. -/
def EndRecord.saturated (record : EndRecord) : Bool :=
  record.disk = 0xFFFF || record.directoryDisk = 0xFFFF || record.count = 0xFFFF
    || record.totalCount = 0xFFFF || record.directorySize = 0xFFFFFFFF
    || record.directoryOffset = 0xFFFFFFFF

/-! ## The directory -/

/-- Reads a directory record; offsets are shifted. -/
def readEntry (shift : Nat) (bytes : Bytes) : Except Error (Entry × Bytes) := do
  let (signature, bytes) ← takeBytes 4 bytes
  if Bytes.toNatLE signature ≠ directorySignature then throw .badDirectoryRecord
  let (fixed, bytes) ← takeBytes 42 bytes
  let (name, bytes) ← takeBytes (word fixed 24 2) bytes
  let (extra, bytes) ← takeBytes (word fixed 26 2) bytes
  let (_, bytes) ← takeBytes (word fixed 28 2) bytes
  let method ← Method.ofRecord (word fixed 6 2) extra
  let flags := word fixed 4 2
  let entry : Entry := {
    name :=
      if flags.testBit 11 then Text.Utf8.decodeReplacing name else Text.Codepage437.decode name
    method
    encrypted := flags.testBit 0
    time := word fixed 8 2
    date := word fixed 10 2
    crc := word fixed 12 4
    compressedSize := word fixed 16 4
    size := word fixed 20 4
    system := word fixed 1 1
    attributes := word fixed 34 4
    recordOffset := word fixed 38 4 + shift }
  return (entry, bytes)

/-- Reads `count` directory records; `found` holds those before them in reverse. -/
def readEntries (shift : Nat) (found : List Entry) :
    (count : Nat) → Bytes → Except Error (List Entry)
  | 0, _ => .ok found.reverse
  | count + 1, bytes => do
    let (entry, bytes) ← readEntry shift bytes
    readEntries shift (entry :: found) count bytes

/-- The directory of a file. -/
def Directory.read (file : Buffer) : Except Error Directory := do
  let record ← EndRecord.read file
  if !record.saturated && record.disk ≠ record.directoryDisk then throw .multipleDisks
  if record.offset < record.directorySize + record.directoryOffset then throw .badDirectoryPlace
  let shift := record.offset - record.directorySize - record.directoryOffset
  let entries ← readEntries shift [] record.count (file.suffix (record.directoryOffset + shift))
  return { entries, comment := record.comment }

end Reline.Zip
