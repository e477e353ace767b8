/-
  Reline.World

  What the program acts on: a file system, the archives that were opened, and a
  log.
-/

import Reline.Archive.Handle
import Reline.Log.Record

namespace Reline

/-- The number of a handle; handles are numbered in the order in which they were opened. -/
abbrev HandleId := Nat

/-- The state that all parts of the program share. -/
structure World where
  /-- The file system. -/
  files : FileSystem
  /-- The handles, open or closed, by their numbers. -/
  handles : Array Archive.Handle
  /-- What was logged so far, the latest first. -/
  log : List Log.Message

namespace World

/-- The world of a file system in which nothing has happened yet. -/
def ofFiles (files : FileSystem) : World := ⟨files, #[], []⟩

/-- Adds a record to the log. -/
def record (world : World) (level : Log.Level) (source : Log.Source) (text : String) : World :=
  { world with log := .record ⟨level, source, text⟩ :: world.log }

/-- Adds a notice to the log. -/
def notice (world : World) (text : String) : World :=
  { world with log := .notice text :: world.log }

/-- Changes the file system. -/
def withFiles (world : World) (files : FileSystem) : World :=
  { world with files }

/-! ## Handles -/

/-- A handle that was never opened. -/
def noHandle : Archive.Handle := ⟨"", none, ∅⟩

/-- The handle with a number. -/
def handle (world : World) (id : HandleId) : Archive.Handle :=
  world.handles.getD id noHandle

/-- Opens the archive at a path. -/
def openArchive (world : World) (path : String) : World × Except Archive.Error HandleId :=
  match Archive.Handle.openAt world.files path with
  | .error e => (world, .error e)
  | .ok handle =>
    let count := (handle.source.map (·.directory.entries.length)).getD 0
    let world := world.record .debug .archive s!"Opened archive {path} ({count} entries)"
    ({ world with handles := world.handles.push handle }, .ok world.handles.size)

/-- Reads an entry through a handle. -/
def readEntry (world : World) (id : HandleId) (entry : String) : Except Archive.Error Bytes :=
  (world.handle id).read world.files entry

/-- Writes an entry through a handle. -/
def writeEntry (world : World) (id : HandleId) (entry : String) (bytes : Bytes) :
    World × Except Archive.Error Unit :=
  match (world.handle id).write entry bytes with
  | .error e => (world, .error e)
  | .ok handle => ({ world with handles := world.handles.setIfInBounds id handle }, .ok ())

/-- Closes a handle. -/
def closeHandle (world : World) (id : HandleId) : World × Except Archive.Error Unit :=
  let (handle, files, result) := (world.handle id).close world.files
  ({ world with files, handles := world.handles.setIfInBounds id handle }, result)

end World

end Reline
