/-
  Reline.FileSystem.Changes

  What has to be done to a file system so that it becomes another.
-/

import Reline.FileSystem.Resolve

namespace Reline

/-- One change of a file system. -/
inductive Change where
  /-- A directory is created. -/
  | createDirectory (path : String)
  /-- A file gets its bytes. -/
  | write (path : String) (bytes : Buffer)
  /-- A file is removed. -/
  | remove (path : String)
deriving DecidableEq, Repr

namespace FileSystem

/-- The bytes of the file at a place, if they are kept on a disk. -/
def stored? (fs : FileSystem) (location : Location) : Option Buffer :=
  match fs.node? location with
  | some (.file id) =>
    let data := fs.data id
    if data.medium = .disk then some data.bytes else none
  | _ => none

/-- What has to be done at a place so that there stands what stands there in `next`. -/
def changeAt (fs next : FileSystem) (location : Location) : Option Change :=
  match next.node? location, fs.node? location with
  | some (.directory _), none => some (.createDirectory (pathOf location))
  | some (.file _), _ =>
    match next.stored? location with
    | some bytes =>
      if fs.stored? location = some bytes then none else some (.write (pathOf location) bytes)
    | none => none
  | none, some (.file _) => some (.remove (pathOf location))
  | _, _ => none

/-- The changes that lead to `next`, in an order in which they can be made: a directory comes before
what stands in it. -/
def changesTo (fs next : FileSystem) : List Change :=
  let gone := (fs.nodes.map Prod.fst).filter fun location => (next.node? location).isNone
  ((next.nodes.map Prod.fst).reverse ++ gone).filterMap (fs.changeAt next)

end FileSystem

end Reline
