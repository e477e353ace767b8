/-
  Reline.Sink.Zip

  A zip archive that takes each text as an entry.

  Texts are added in the order in which they come; a second text under a name is
  passed over with a warning. The record of an entry goes to the file when the
  entry is added. Its data follows, and completes the record, when the next entry
  is added or the sink is closed, which writes the directory as well. An entry that
  the device refuses stays stuck: everything behind it is refused as well.
-/

import Reline.Sink.Basic

namespace Reline

/-- An archive to which entries can be added. -/
structure ZipOutput where
  /-- The file that it is written to. -/
  file : FileId
  /-- The entries that the file holds. -/
  complete : List Zip.Item
  /-- The entry added last, of which the file holds an open record only. -/
  pending : Option Zip.Item
  /-- Where the record of the pending entry stands, or the next one will. -/
  offset : Nat
  /-- Whether the device refused an entry. -/
  stuck : Bool

namespace ZipOutput

/-- An archive without entries. -/
def start (file : FileId) : ZipOutput :=
  { file, complete := [], pending := none, offset := 0, stuck := false }

/-- The entries that were added. -/
def items (output : ZipOutput) : List Zip.Item :=
  output.complete ++ output.pending.toList

/-- Writes the data of the pending entry and completes its record. -/
def settle (output : ZipOutput) (fs : FileSystem) : Except OsError (ZipOutput × FileSystem) :=
  match output.pending with
  | none => .ok (output, fs)
  | some item => do
    let fs ← fs.write output.file (output.offset + item.openRecord.length) item.compressed
    let fs ← fs.write output.file (output.offset + Zip.Item.dataFieldsOffset) item.dataFields
    let output := {
      output with
      complete := output.complete ++ [item], pending := none
      offset := output.offset + item.encode.length }
    return (output, fs)

/-- Adds an entry. -/
def add (output : ZipOutput) (fs : FileSystem) (item : Zip.Item) :
    Except OsError (ZipOutput × FileSystem) := do
  let (output, fs) ← output.settle fs
  let fs ← fs.write output.file output.offset item.openRecord
  return ({ output with pending := some item }, fs)

/-- Writes the directory behind the entries. -/
def finish (output : ZipOutput) (fs : FileSystem) : Except OsError FileSystem := do
  let (output, fs) ← output.settle fs
  fs.write output.file output.offset (Zip.encodeTail output.items [])

end ZipOutput

/-- An archive of texts. -/
structure ZipSink where
  /-- The path of the archive. -/
  path : String
  /-- The archive, unless the sink is closed. -/
  output : Option ZipOutput

namespace ZipSink

/-- Why a text cannot be stored, or the archive not be completed. -/
inductive Error where
  /-- The directory of the archive cannot be created. -/
  | createDirectory (path : String) (cause : IoError)
  /-- The file of the archive cannot be created. -/
  | createFile (path : String) (cause : IoError)
  /-- The sink is closed. -/
  | closed (path : String)
  /-- An entry cannot be added. -/
  | add (entryName path : String) (cause : IoError)
  /-- The directory of the archive cannot be written behind its entries. -/
  | finish (path : String) (cause : IoError)
  /-- The last bytes of the archive cannot be written. -/
  | flush (path : String) (cause : IoError)
deriving DecidableEq, Repr

/-- The failure to report; a fault of the archive is reported together with its own cause, which has
the same text. -/
def Error.failure : Error → Failure
  | createDirectory path cause =>
    .during s!"Failed to create directory: {path}" (.ofText cause.message)
  | createFile path cause =>
    .during s!"Failed to create output zip: {path}" (.ofText cause.message)
  | closed path => .ofText s!"Output zip already closed: {path}"
  | add entryName path cause =>
    .during s!"Failed to add {entryName} to {path}" (.during cause.message (.ofText cause.message))
  | finish path cause =>
    .during s!"Failed to finish output zip: {path}"
      (.during cause.message (.ofText cause.message))
  | flush path cause => .during s!"Failed to flush output zip: {path}" (.ofText cause.message)

/-- Creates an archive of texts, and the directories above it. -/
def create (fs : FileSystem) (path : String) : FileSystem × Except Error ZipSink :=
  let made : FileSystem × Except Error Unit :=
    match FileSystem.Path.parent path with
    | none => (fs, .ok ())
    | some above =>
      match fs.createDirectories above with
      | (fs, .ok ()) => (fs, .ok ())
      | (fs, .error e) => (fs, .error (.createDirectory above e))
  match made with
  | (fs, .error e) => (fs, .error e)
  | (fs, .ok ()) =>
    match fs.createFile path with
    | .error e => (fs, .error (.createFile path e))
    | .ok (file, fs) => (fs, .ok { path, output := some (.start file) })

/-- Whether a text is stored under an entry name. -/
def contains (sink : ZipSink) (entryName : String) : Bool :=
  match sink.output with
  | some output => output.items.any (·.name = entryName)
  | none => false

/-- Stores a text under a new entry name. -/
def add (sink : ZipSink) (fs : FileSystem) (entryName content : String) :
    ZipSink × FileSystem × Except Error Unit :=
  match sink.output with
  | none => (sink, fs, .error (.closed sink.path))
  | some output =>
    let item := Zip.Item.new entryName (Text.Utf8.encode content)
    match output.add fs item with
    | .ok (output, fs) => ({ sink with output := some output }, fs, .ok ())
    | .error e =>
      ({ sink with output := some { output with stuck := true } }, fs,
        .error (.add entryName sink.path (.os e)))

/-- Stores a text of a class under an entry name, unless there is one already. -/
def save (sink : ZipSink) (world : World) (qualifiedName entryName content : String) :
    ZipSink × World × Except Error Unit :=
  if sink.contains entryName then
    (sink, world.record .warn .sink
      s!"Zip entry {entryName} already exists, skipping source of {qualifiedName}", .ok ())
  else
    let (sink, files, result) := sink.add world.files entryName content
    (sink, world.withFiles files, result)

/-- The notice that an archive is given up because its device has no space. -/
def abandonedNotice : String :=
  "ZipWriter drop failed: Io(Os \x7b code: 28, kind: StorageFull, " ++
    "message: \"No space left on device\" \x7d)"

/-- Completes the archive. Afterwards the sink is closed, also if that fails; closing it once more
does nothing. An archive that is stuck is given up with a notice. -/
def close (sink : ZipSink) (world : World) : ZipSink × World × Except Error Unit :=
  match sink.output with
  | none => (sink, world, .ok ())
  | some output =>
    let closed := { sink with output := none }
    match output.finish world.files with
    | .ok files => (closed, world.withFiles files, .ok ())
    | .error e =>
      if output.stuck then
        (closed, world.notice abandonedNotice, .error (.finish sink.path (.os e)))
      else (closed, world, .error (.flush sink.path (.os e)))

instance : TextSink ZipSink where
  save sink world qualifiedName entryName content :=
    let (sink, world, result) := sink.save world qualifiedName entryName content
    (sink, world, result.mapError Error.failure)
  close sink world :=
    let (sink, world, result) := sink.close world
    (sink, world, result.mapError Error.failure)

end ZipSink

end Reline
