/-
  Reline.FileSystem.Operations

  Operations on a file system by paths.

  An operation that fails leaves the file system as it was; only the creation of
  several directories may have made some of them.
-/

import Reline.FileSystem.Resolve

namespace Reline.FileSystem

/-! ## Reading -/

/-- The file that a path names, to be read; a directory can be opened, but is no file. -/
def openFile (fs : FileSystem) (path : String) : Except IoError (Option FileId) := do
  match ← fs.inspect path with
  | (_, .file id) => return some id
  | _ => return none

/-- The bytes of the file that a path names. -/
def contents (fs : FileSystem) (path : String) : Except IoError Buffer := do
  match ← fs.openFile path with
  | some id => return (fs.data id).bytes
  | none => throw (.os .isDirectory)

/-- The permissions of what a path names. -/
def mode (fs : FileSystem) (path : String) : Except IoError Nat := do
  match ← fs.inspect path with
  | (_, .file id) => return (fs.data id).mode
  | (_, .directory mode) => return mode
  | (_, .link _) => throw (.os .linkLoop)

/-- Whether a path names a directory. -/
def isDirectory (fs : FileSystem) (path : String) : Bool :=
  match fs.inspect path with
  | .ok (_, .directory _) => true
  | _ => false

/-! ## Files -/

/-- Creates the file that a path names, or empties it, giving its number. -/
def createFile (fs : FileSystem) (path : String) : Except IoError (FileId × FileSystem) := do
  match ← fs.resolve .create path with
  | .found _ (.file id) _ =>
    let clear (d : FileData) : FileData := { d with bytes := #[] }
    return (id, fs.modifyData id clear)
  | .found .. => throw (.os .isDirectory)
  | .vacant location _ =>
    let (id, fs) := fs.addData { bytes := #[], mode := newFileMode, medium := .disk }
    return (id, fs.putNode location (.file id))

/-- Writes bytes to the file that a path names, which is created or emptied first. If the bytes
cannot be written, the file stays empty. -/
def putContents (fs : FileSystem) (path : String) (bytes : Bytes) :
    FileSystem × Except IoError Unit :=
  match fs.createFile path with
  | .error e => (fs, .error e)
  | .ok (id, fs) =>
    match fs.write id 0 bytes with
    | .error e => (fs, .error (.os e))
    | .ok fs => (fs, .ok ())

/-- Sets the permissions of what a path names. -/
def setMode (fs : FileSystem) (path : String) (mode : Nat) : Except IoError FileSystem := do
  match ← fs.inspect path with
  | (_, .file id) =>
    let set (d : FileData) : FileData := { d with mode }
    return fs.modifyData id set
  | (location, .directory _) => return fs.putNode location (.directory mode)
  | (_, .link _) => throw (.os .linkLoop)

/-- Removes the file or link that a path names. -/
def removeFile (fs : FileSystem) (path : String) : Except IoError FileSystem := do
  match ← fs.resolve .entry path with
  | .found _ (.directory _) _ => throw (.os .isDirectory)
  | .found location _ slash =>
    if slash then throw (.os .notDirectory)
    return fs.dropNode location
  | .vacant .. => throw (.os .notFound)

/-- Moves the file that a path names to the place that another names, over a file that stands
there. -/
def renameFile (fs : FileSystem) (source destination : String) : Except IoError FileSystem := do
  match ← fs.resolve .entry source, ← fs.resolve .entry destination with
  | .vacant .., _ => throw (.os .notFound)
  | .found _ _ true, _ | _, .found _ _ true | _, .vacant _ true => throw (.os .notDirectory)
  | _, .found _ (.directory _) _ => throw (.os .isDirectory)
  | .found location node _, .found there _ _ | .found location node _, .vacant there _ =>
    return (fs.dropNode location).putNode there node

/-! ## Directories -/

/-- Creates the directory that a path names. -/
def createDirectory (fs : FileSystem) (path : String) : Except IoError FileSystem := do
  match ← fs.resolve .entry path with
  | .found .. => throw (.os .alreadyExists)
  | .vacant location _ => return fs.putNode location (.directory newDirectoryMode)

/-- Creates the directory that a path names, unless it is there, after those above it as far as they
are missing. `depth` bounds how many there can be. -/
def createDirectoriesWithin (fs : FileSystem) (path : String) :
    (depth : Nat) → FileSystem × Except IoError Unit
  | 0 => (fs, .ok ())
  | depth + 1 =>
    if path = "" then (fs, .ok ())
    else
      let settle (fs : FileSystem) (e : IoError) : FileSystem × Except IoError Unit :=
        if fs.isDirectory path then (fs, .ok ()) else (fs, .error e)
      match fs.createDirectory path with
      | .ok fs => (fs, .ok ())
      | .error (.os .notFound) =>
        match Path.parent path with
        | none => (fs, .error (.os .notFound))
        | some above =>
          match fs.createDirectoriesWithin above depth with
          | (fs, .error e) => (fs, .error e)
          | (fs, .ok ()) =>
            match fs.createDirectory path with
            | .ok fs => (fs, .ok ())
            | .error e => settle fs e
      | .error e => settle fs e

/-- Creates the directory that a path names, unless it is there, after those above it as far as they
are missing. -/
def createDirectories (fs : FileSystem) (path : String) : FileSystem × Except IoError Unit :=
  fs.createDirectoriesWithin path (path.length + 1)

/-- Removes the directory that a path names with all below it. -/
def removeTree (fs : FileSystem) (path : String) : Except IoError FileSystem := do
  match ← fs.resolve .entry path with
  | .found location (.directory _) _ => return fs.dropTree location
  | .found location (.link _) false => return fs.dropNode location
  | .found .. => throw (.os .notDirectory)
  | .vacant .. => throw (.os .notFound)

end Reline.FileSystem
