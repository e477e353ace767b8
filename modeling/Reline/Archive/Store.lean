/-
  Reline.Archive.Store

  Sets of open archives.

  A store opens each archive once, whichever path leads to it: archives are
  registered under the path of their place. A path that leads nowhere is
  registered in its absolute form, so that opening it reports what is missing.
-/

import Reline.World

namespace Reline.Archive

/-- An archive that a store was asked for. -/
structure Cell where
  /-- The absolute path under which it is registered. -/
  key : String
  /-- Its handle, if it could be opened. -/
  handle : Option HandleId
deriving DecidableEq, Repr

/-- The archives that a store was asked for. -/
structure Store where
  cells : List Cell
deriving DecidableEq, Repr

namespace Store

/-- The store without archives. -/
def empty : Store := ⟨[]⟩

/-! ## Keys -/

/-- The path under which an archive is registered. -/
def key (fs : FileSystem) (path : String) : Except Error String :=
  match fs.canonical path with
  | .ok key => .ok key
  | .error _ =>
    if path = "" then .error (.io path .emptyPath)
    else .ok (FileSystem.Path.absolute (FileSystem.pathOf fs.current) path)

/-- Whether two keys name the same place. -/
def sameKey (a b : String) : Bool :=
  FileSystem.Path.names a = FileSystem.Path.names b

/-- The cell registered under a key. -/
def find? (store : Store) (key : String) : Option Cell :=
  store.cells.find? fun cell => sameKey cell.key key

/-- Registers a handle under a key; the first text of a key is kept. -/
def register (store : Store) (key : String) (handle : Option HandleId) : Store :=
  match store.find? key with
  | some _ =>
    ⟨store.cells.map fun cell => if sameKey cell.key key then { cell with handle } else cell⟩
  | none => ⟨store.cells ++ [⟨key, handle⟩]⟩

/-- The number of handles of a store, open or closed. -/
def openHandles (store : Store) : Nat :=
  store.cells.countP fun cell => cell.handle.isSome

/-! ## Reading and writing -/

/-- The handle of an archive, which is opened if it was not before. -/
def handle (store : Store) (world : World) (path : String) :
    Store × World × Except Error HandleId :=
  match key world.files path with
  | .error e => (store, world, .error e)
  | .ok key =>
    match (store.find? key).bind Cell.handle with
    | some id => (store, world, .ok id)
    | none =>
      match world.openArchive key with
      | (world, .error e) => (store.register key none, world, .error e)
      | (world, .ok id) => (store.register key (some id), world, .ok id)

/-- The bytes of an entry of an archive. -/
def read (store : Store) (world : World) (path entry : String) :
    Store × World × Except Error Bytes :=
  match store.handle world path with
  | (store, world, .error e) => (store, world, .error e)
  | (store, world, .ok id) => (store, world, world.readEntry id entry)

/-- Writes an entry of an archive. -/
def write (store : Store) (world : World) (path entry : String) (bytes : Bytes) :
    Store × World × Except Error Unit :=
  match store.handle world path with
  | (store, world, .error e) => (store, world, .error e)
  | (store, world, .ok id) =>
    let (world, result) := world.writeEntry id entry bytes
    (store, world, result)

/-! ## Closing -/

/-- Whether names do not come behind others: two dots come before all other names. -/
def namesLe : List String → List String → Bool
  | [], _ => true
  | _ :: _, [] => false
  | a :: as, b :: bs =>
    if a = b then namesLe as bs
    else if a = ".." then true
    else if b = ".." then false
    else a < b

/-- The cells in the order of their keys. -/
def ordered (store : Store) : List Cell :=
  store.cells.mergeSort fun a b =>
    namesLe (FileSystem.Path.names a.key) (FileSystem.Path.names b.key)

/-- Closes the handles of cells in turn, giving the failures. -/
def closeCells (world : World) : List Cell → World × List CloseFailure
  | [] => (world, [])
  | ⟨_, none⟩ :: rest => closeCells world rest
  | ⟨key, some id⟩ :: rest =>
    match world.closeHandle id with
    | (world, .ok ()) => closeCells (world.record .debug .archive s!"Closed archive {key}") rest
    | (world, .error error) =>
      let (world, failures) := closeCells world rest
      (world, ⟨key, error⟩ :: failures)

/-- Closes all handles, whatever becomes of each, and forgets all archives. -/
def closeAll (store : Store) (world : World) : Store × World × List CloseFailure :=
  let (world, failures) := closeCells world store.ordered
  (empty, world, failures)

/-- Gives up a store: all handles are closed, and failures are only logged. -/
def drop (store : Store) (world : World) : World :=
  let (_, world, failures) := store.closeAll world
  failures.foldl (fun world failure =>
    world.record .warn .archive
      s!"Failed to close archive {failure.path}: {failure.error.message}") world

end Store

end Reline.Archive
