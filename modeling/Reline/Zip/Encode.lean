/-
  Reline.Zip.Encode

  Writing zip archives.

  An archive is its items, each a record and its compressed data, then the
  directory of the items, then the end record. Names are written as UTF-8, which
  is announced unless they are ASCII.
-/

import Reline.Zip.Crc32
import Reline.Zip.Deflate
import Reline.Zip.Directory
import Reline.Zip.Extract

namespace Reline.Zip

/-- An entry to be written. -/
structure Item where
  /-- The name of the entry. -/
  name : String
  /-- How its data is compressed. -/
  method : Method
  /-- The date of the last change. -/
  date : Nat
  /-- The time of the last change. -/
  time : Nat
  /-- The Unix mode, with the type of the file. -/
  mode : Nat
  /-- The checksum of the data. -/
  crc : Nat
  /-- The number of bytes that the compressed data is said to have. -/
  compressedSize : Nat
  /-- The number of bytes of the data. -/
  size : Nat
  /-- The compressed data. -/
  compressed : Bytes
deriving DecidableEq, Repr

/-- The date of items without one: the first day that dates can express. -/
def defaultDate : Nat := 33

/-- The mode of items without one: a regular file that its owner may write. -/
def defaultMode : Nat := 0o100644

namespace Item

/-- The item of some data. -/
def ofData (name : String) (method : Method) (date time mode : Nat) (data : Bytes) : Item :=
  let compressed := match method with
    | .stored => data
    | .deflated | .other _ => deflate data
  { name, method, date, time, mode, crc := (crc32 data).toNat, compressedSize := compressed.length,
    size := data.length, compressed }

/-- The item of data that is new: compressed, with the default date and mode. -/
def new (name : String) (data : Bytes) : Item :=
  ofData name .deflated defaultDate 0 defaultMode data

/-- The item that copies an entry without decompressing it; only the permissions of its mode are
kept. -/
def ofEntry (e : Entry) (compressed : Bytes) : Item :=
  { name := e.name, method := e.method, date := e.date, time := e.time,
    mode := match e.mode? with
      | some mode => mode &&& 0o777
      | none => defaultMode
    crc := e.crc, compressedSize := e.compressedSize, size := e.size, compressed }

/-! ## Records -/

/-- The bytes of the name. -/
def nameBytes (item : Item) : Bytes := Text.Utf8.encode item.name

/-- The flags: whether the name is announced as UTF-8. -/
def flags (item : Item) : Nat :=
  if item.nameBytes.all (· < 128) then 0 else 0x800

/-- The fields that are known once the data is: its checksum and sizes. -/
def dataFields (item : Item) : Bytes :=
  Bytes.ofNatLE 4 item.crc ++ Bytes.ofNatLE 4 item.compressedSize ++ Bytes.ofNatLE 4 item.size

/-- The fields that both records of an item have; those of the data are given. -/
def commonFields (item : Item) (dataFields : Bytes) : Bytes :=
  Bytes.ofNatLE 2 20 ++ Bytes.ofNatLE 2 item.flags ++ Bytes.ofNatLE 2 item.method.code
    ++ Bytes.ofNatLE 2 item.time ++ Bytes.ofNatLE 2 item.date ++ dataFields
    ++ Bytes.ofNatLE 2 item.nameBytes.length ++ Bytes.ofNatLE 2 0

/-- The record in front of an item's data, with the fields of the data given. -/
def localRecord (item : Item) (dataFields : Bytes) : Bytes :=
  Bytes.ofNatLE 4 localSignature ++ item.commonFields dataFields ++ item.nameBytes

/-- The place of the fields of the data in the record in front of it. -/
def dataFieldsOffset : Nat := 14

/-- The record in front of an item's data before anything is known of the data. -/
def openRecord (item : Item) : Bytes :=
  item.localRecord (List.replicate 12 0)

/-- The record in front of an item's data, and the data. -/
def encode (item : Item) : Bytes :=
  item.localRecord item.dataFields ++ item.compressed

/-- The directory record of an item that stands at an offset. -/
def directoryRecord (item : Item) (offset : Nat) : Bytes :=
  Bytes.ofNatLE 4 directorySignature ++ Bytes.ofNatLE 2 0x032E
    ++ item.commonFields item.dataFields
    ++ Bytes.ofNatLE 2 0 ++ Bytes.ofNatLE 2 0 ++ Bytes.ofNatLE 2 0
    ++ Bytes.ofNatLE 4 (item.mode <<< 16) ++ Bytes.ofNatLE 4 offset ++ item.nameBytes

end Item

/-! ## Archives -/

/-- The directory records of items, the first of which stands at an offset. -/
def directoryRecords (offset : Nat) : List Item → Bytes
  | [] => []
  | item :: items =>
    item.directoryRecord offset ++ directoryRecords (offset + item.encode.length) items

/-- The end record of an archive whose directory has a place. -/
def encodeEnd (count directorySize directoryOffset : Nat) (comment : Bytes) : Bytes :=
  endSignature ++ Bytes.ofNatLE 2 0 ++ Bytes.ofNatLE 2 0 ++ Bytes.ofNatLE 2 count
    ++ Bytes.ofNatLE 2 count ++ Bytes.ofNatLE 4 directorySize ++ Bytes.ofNatLE 4 directoryOffset
    ++ Bytes.ofNatLE 2 comment.length ++ comment

/-- The items one behind the other. -/
def encodeItems (items : List Item) : Bytes :=
  items.flatMap Item.encode

/-- What follows the items in an archive: the directory and the end record. -/
def encodeTail (items : List Item) (comment : Bytes) : Bytes :=
  let records := directoryRecords 0 items
  records ++ encodeEnd items.length records.length (encodeItems items).length comment

/-- An archive. -/
def encode (items : List Item) (comment : Bytes) : Bytes :=
  encodeItems items ++ encodeTail items comment

end Reline.Zip
