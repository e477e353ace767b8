/-
  Reline.FileSystem.Basic

  A file system: what stands at which place, and the data of its files.

  A place is a list of names from the root down. A file's data is kept apart
  from its place, under a number that stays the same when the file is renamed or
  removed: whoever has the file open keeps it.
-/

import Reline.Bytes
import Reline.IoError

namespace Reline

/-- A place in a file system: the names from the root down. -/
abbrev Location := List String

/-- The number of a file's data. -/
abbrev FileId := Nat

/-- What can stand at a place. -/
inductive Node where
  /-- A directory with its permissions. -/
  | directory (mode : Nat)
  /-- A file. -/
  | file (id : FileId)
  /-- A link to a path. -/
  | link (target : String)
deriving DecidableEq, Repr

/-- What a file's data is kept on. -/
inductive Medium where
  /-- A disk: what is written can be read. -/
  | disk
  /-- A device that accepts all data and keeps none. -/
  | sink
  /-- A device that has no space for any data. -/
  | full
deriving DecidableEq, Repr

/-- The data of a file. -/
structure FileData where
  /-- The bytes. -/
  bytes : Buffer
  /-- The permissions. -/
  mode : Nat
  /-- What they are kept on. -/
  medium : Medium
deriving DecidableEq, Repr

instance : Inhabited FileData := ⟨⟨#[], 0, .disk⟩⟩

/-- A file system. -/
structure FileSystem where
  /-- What stands at each place but the root, which is a directory. -/
  nodes : List (Location × Node)
  /-- The data of the files, by their numbers. -/
  files : Array FileData
  /-- The current directory. -/
  current : Location

namespace FileSystem

/-- The permissions of new files. -/
def newFileMode : Nat := 0o644

/-- The permissions of new directories. -/
def newDirectoryMode : Nat := 0o755

/-! ## Devices -/

/-- The file system with nothing but the two devices of each system, given the current directory. -/
def bare (current : Location) : FileSystem :=
  { nodes := [(["dev", "full"], .file 0), (["dev", "null"], .file 1),
      (["dev"], .directory newDirectoryMode)]
    files := #[{ bytes := #[], mode := 0o666, medium := .full },
      { bytes := #[], mode := 0o666, medium := .sink }]
    current }

/-! ## Places -/

/-- What stands at a place. -/
def node? (fs : FileSystem) (location : Location) : Option Node :=
  if location = [] then some (.directory newDirectoryMode) else fs.nodes.lookup location

/-- Puts something at a place, over what stood there. -/
def putNode (fs : FileSystem) (location : Location) (node : Node) : FileSystem :=
  { fs with nodes := (location, node) :: fs.nodes.filter (·.1 ≠ location) }

/-- Removes what stands at a place. -/
def dropNode (fs : FileSystem) (location : Location) : FileSystem :=
  { fs with nodes := fs.nodes.filter (·.1 ≠ location) }

/-- Whether a place is below another, or the same. -/
def within (root location : Location) : Bool :=
  root.isPrefixOf location

/-- Removes what stands at a place and below it. -/
def dropTree (fs : FileSystem) (root : Location) : FileSystem :=
  { fs with nodes := fs.nodes.filter fun (location, _) => !within root location }

/-! ## Data -/

/-- The data of a file. -/
def data (fs : FileSystem) (id : FileId) : FileData :=
  fs.files.getD id default

/-- Changes the data of a file. -/
def modifyData (fs : FileSystem) (id : FileId) (f : FileData → FileData) : FileSystem :=
  { fs with files := fs.files.modify id f }

/-- Adds the data of a new file, giving its number. -/
def addData (fs : FileSystem) (data : FileData) : FileId × FileSystem :=
  (fs.files.size, { fs with files := fs.files.push data })

/-- Writes bytes over those of a file from an offset on, which may be behind its end. -/
def write (fs : FileSystem) (id : FileId) (offset : Nat) (bytes : Bytes) :
    Except OsError FileSystem :=
  match (fs.data id).medium with
  | .disk => .ok (fs.modifyData id fun d => { d with bytes := d.bytes.overwrite offset bytes })
  | .sink => .ok fs
  | .full => if bytes.isEmpty then .ok fs else .error .noSpace

/-- Makes sure that the bytes of a file outlast the system, which a disk alone can do. -/
def sync (fs : FileSystem) (id : FileId) : Except OsError Unit :=
  match (fs.data id).medium with
  | .disk => .ok ()
  | .sink | .full => .error .invalidArgument

end FileSystem

end Reline
