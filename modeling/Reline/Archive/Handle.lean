/-
  Reline.Archive.Handle

  Open archives.

  A handle holds the directory of an archive and the writes staged for it. Reads
  see staged writes first. Closing a handle with staged writes builds the
  archive anew beside it and moves the result over it: entries that were not written
  are copied as they are, written entries keep their places, and new ones follow
  in the order of their names.
-/

import Reline.Archive.Error
import Reline.FileSystem.Operations
import Reline.OrderedTable
import Reline.Zip.Encode

namespace Reline.Archive

/-- A file that was read as an archive. -/
structure Source where
  /-- The file. -/
  file : FileId
  /-- The number of bytes that it had when it was opened. -/
  length : Nat
  /-- Its directory at that time. -/
  directory : Zip.Directory

/-- An archive that is open, or was. -/
structure Handle where
  /-- The path of the archive. -/
  path : String
  /-- What it reads from, unless it is closed. -/
  source : Option Source
  /-- The writes that are not in the file yet. -/
  staged : OrderedTable String Bytes

/-- An entry name as archives store it: without slashes in front. -/
def normalizeEntry (entry : String) : String :=
  String.ofList (entry.toList.dropWhile (· = '/'))

namespace Source

/-- The bytes that a source shows: those that the file has now, as many as it had; where it became
shorter, zeros. -/
def bytes (source : Source) (fs : FileSystem) : Buffer :=
  (fs.data source.file).bytes.resize source.length

end Source

namespace Handle

/-! ## Opening, reading, writing -/

/-- Opens the archive at a path. -/
def openAt (fs : FileSystem) (path : String) : Except Error Handle :=
  match fs.openFile path with
  | .error (.os .notFound) => .error (.archiveNotFound path)
  | .error e => .error (.io path e)
  | .ok none => .error (.io path (.os .noDevice))
  | .ok (some file) =>
    let data := fs.data file
    if data.medium ≠ .disk then .error (.io path (.os .noDevice))
    else
      match Zip.Directory.read data.bytes with
      | .error e => .error (.ofZip path e)
      | .ok directory =>
        .ok { path, source := some { file, length := data.bytes.size, directory }, staged := ∅ }

/-- The bytes of an entry. -/
def read (handle : Handle) (fs : FileSystem) (entry : String) : Except Error Bytes :=
  let entry := normalizeEntry entry
  match handle.staged.get? entry with
  | some bytes => .ok bytes
  | none =>
    match handle.source with
    | none => .error (.closed handle.path)
    | some source =>
      match source.directory.find? entry with
      | none => .error (.entryNotFound handle.path entry)
      | some e => (e.read (source.bytes fs)).mapError (.ofZip handle.path)

/-- Stages the bytes of an entry. -/
def write (handle : Handle) (entry : String) (bytes : Bytes) : Except Error Handle :=
  match handle.source with
  | none => .error (.closed handle.path)
  | some _ =>
    .ok { handle with staged := handle.staged.insert (normalizeEntry entry) bytes }

/-! ## Closing -/

/-- The item that replaces an entry: it keeps the entry's date, method and permissions. -/
def replacement (e : Zip.Entry) (bytes : Bytes) : Zip.Item :=
  let method := match e.method with
    | .stored => .stored
    | .deflated | .other _ => .deflated
  let mode := match e.mode? with
    | some mode => (mode &&& 0o777) ||| 0o100000
    | none => Zip.defaultMode
  .ofData e.name method e.date e.time mode bytes

/-- The items of entries, the first of a staged name replaced, and the writes that no entry took.
Every entry has to be one that can be opened. -/
def rebuildEntries (file : Buffer) (staged : OrderedTable String Bytes) (done : List Zip.Item) :
    List Zip.Entry → Except Zip.Error (List Zip.Item × OrderedTable String Bytes)
  | [] => .ok (done.reverse, staged)
  | e :: rest => do
    let compressed ← e.openIn file
    match staged.get? e.name with
    | some bytes => rebuildEntries file (staged.erase e.name) (replacement e bytes :: done) rest
    | none => rebuildEntries file staged (.ofEntry e compressed :: done) rest

/-- The archive with the staged writes. -/
def rebuilt (file : Buffer) (directory : Zip.Directory) (staged : OrderedTable String Bytes) :
    Except Zip.Error Bytes := do
  let (items, rest) ← rebuildEntries file staged [] directory.entries
  let new := rest.entries.map fun (name, bytes) => Zip.Item.new name bytes
  return Zip.encode (items ++ new) directory.comment

/-- The path beside an archive at which it is built anew. -/
def temporaryPath (path : String) : String := path ++ ".tmp"

/-- The entries of a directory that are looked at when its archive is rebuilt on a medium: a device
without space refuses the first of them. -/
def rebuiltPart (directory : Zip.Directory) : Medium → Zip.Directory
  | .full => { directory with entries := directory.entries.take 1 }
  | .disk | .sink => directory

/-- Writes the rebuilt archive beside the archive. What the archive's own file shows is read after
the new file has been created. -/
def rebuild (fs : FileSystem) (source : Source) (staged : OrderedTable String Bytes)
    (temporary : String) : FileSystem × Except Error Unit :=
  match fs.createFile temporary with
  | .error e => (fs, .error (.io temporary e))
  | .ok (id, fs) =>
    let directory := rebuiltPart source.directory (fs.data id).medium
    match rebuilt (source.bytes fs) directory staged with
    | .error e => (fs, .error (.ofZip temporary e))
    | .ok bytes =>
      match fs.write id 0 bytes with
      | .error e => (fs, .error (.io temporary (.os e)))
      | .ok fs => (fs, (fs.sync id).mapError fun e => .io temporary (.os e))

/-- Gives the rebuilt archive the permissions of the archive and moves it over it. -/
def install (fs : FileSystem) (temporary path : String) : FileSystem × Except Error Unit :=
  match fs.mode path with
  | .error e => (fs, .error (.io path e))
  | .ok mode =>
    match fs.setMode temporary mode with
    | .error e => (fs, .error (.io temporary e))
    | .ok fs =>
      match fs.renameFile temporary path with
      | .error e => (fs, .error (.io path e))
      | .ok fs => (fs, .ok ())

/-- Puts staged writes into the archive's file. If that fails, the file beside it is removed. -/
def flush (fs : FileSystem) (source : Source) (staged : OrderedTable String Bytes)
    (path : String) : FileSystem × Except Error Unit :=
  let temporary := temporaryPath path
  let (fs, result) := match rebuild fs source staged temporary with
    | (fs, .ok ()) => install fs temporary path
    | failed => failed
  match result with
  | .ok () => (fs, .ok ())
  | .error e =>
    match fs.removeFile temporary with
    | .ok fs => (fs, .error e)
    | .error _ => (fs, .error e)

/-- Closes a handle; it is closed afterwards whether or not its writes reached the file. Closing a
closed handle does nothing. -/
def close (handle : Handle) (fs : FileSystem) : Handle × FileSystem × Except Error Unit :=
  match handle.source with
  | none => (handle, fs, .ok ())
  | some source =>
    let closed := { handle with source := none, staged := ∅ }
    if handle.staged.isEmpty then (closed, fs, .ok ())
    else
      let (fs, result) := flush fs source handle.staged handle.path
      (closed, fs, result)

end Handle

end Reline.Archive
