/-
  Reline.Proofs.Archive.Run

  Runs of operations on a store of archives and on the handles that it gave.

  A run may name archives by any paths, use handles by any numbers, whether they
  were opened or not, and go on after handles or the whole store were closed. In
  every world that a run leads to, handles have paths from the root. No file
  changes but by a close.
-/

import Reline.Archive.Store
import Reline.Proofs.Archive.Handle
import Reline.Proofs.FileSystem.Operations

namespace Reline

namespace Archive

/-! ## Uses -/

/-- What can be done with a store and with handles. -/
inductive Use where
  /-- Asks the store for the handle of an archive. -/
  | handle (path : String)
  /-- Reads through the store. -/
  | read (path entry : String)
  /-- Writes through the store. -/
  | write (path entry : String) (bytes : Bytes)
  /-- Asks the store for the number of its handles. -/
  | openHandles
  /-- Reads through a handle. -/
  | readHandle (id : HandleId) (entry : String)
  /-- Writes through a handle. -/
  | writeHandle (id : HandleId) (entry : String) (bytes : Bytes)
  /-- Closes a handle. -/
  | closeHandle (id : HandleId)
  /-- Closes all handles of the store. -/
  | closeAll
  /-- Gives up the store for a new one. -/
  | drop

namespace Use

/-- Whether a use closes handles. -/
def closes : Use → Bool
  | closeHandle _ | closeAll | drop => true
  | _ => false

/-- The store and the world after a use. -/
def apply (store : Store) (world : World) : Use → Store × World
  | handle path =>
    let (store, world, _) := store.handle world path
    (store, world)
  | read path entry =>
    let (store, world, _) := store.read world path entry
    (store, world)
  | write path entry bytes =>
    let (store, world, _) := store.write world path entry bytes
    (store, world)
  | openHandles | readHandle _ _ => (store, world)
  | writeHandle id entry bytes => (store, (world.writeEntry id entry bytes).1)
  | closeHandle id => (store, (world.closeHandle id).1)
  | closeAll =>
    let (store, world, _) := store.closeAll world
    (store, world)
  | drop => (.empty, store.drop world)

/-- A read asks for the handle, and changes nothing else. -/
theorem apply_read (store : Store) (world : World) (path entry : String) :
    (read path entry).apply store world = (handle path).apply store world := by
  rw [apply, apply, Store.read]
  rcases store.handle world path with ⟨store', world', e | id⟩ <;> rfl

end Use

/-- The store and the world after uses in turn. -/
def run (store : Store) (world : World) : List Use → Store × World
  | [] => (store, world)
  | use :: uses => run (use.apply store world).1 (use.apply store world).2 uses

/-! ## Worlds -/

/-- Whether the files of a world are well-formed, and all its handles have paths from the root. -/
structure Sound (world : World) : Prop where
  files : world.files.WellFormed
  paths : ∀ handle ∈ world.handles, FileSystem.Path.isAbsolute handle.path = true

variable {store : Store} {world world' : World} {id : HandleId}

theorem sound_ofFiles {files : FileSystem} (h : files.WellFormed) : Sound (.ofFiles files) :=
  ⟨h, fun _ hhandle => absurd hhandle (Array.not_mem_empty _)⟩

/-- It is about the handles and the files of a world only. -/
theorem Sound.of_eq (h : Sound world) (hhandles : world'.handles = world.handles)
    (hfiles : world'.files = world.files) : Sound world' :=
  ⟨hfiles ▸ h.files, hhandles ▸ h.paths⟩

/-- A handle with something to read has a path from the root. -/
theorem Sound.isAbsolute (h : Sound world) (id : HandleId)
    (hsource : (world.handle id).source ≠ none) :
    FileSystem.Path.isAbsolute (world.handle id).path = true := by
  rw [World.handle, Array.getD_eq_getD_getElem?] at hsource ⊢
  cases hid : world.handles[id]? with
  | none =>
    rw [hid] at hsource
    exact absurd rfl hsource
  | some handle => exact h.paths handle (Array.mem_of_getElem? hid)

/-- A world stays sound when a handle gives way to one of the same path. -/
theorem Sound.setIfInBounds (h : Sound world) (id : HandleId) {handle : Handle}
    (hpath : handle.path = (world.handle id).path) {files : FileSystem} (hfiles : files.WellFormed)
    (log : List Log.Message) : Sound ⟨files, world.handles.setIfInBounds id handle, log⟩ := by
  refine ⟨hfiles, fun handle' hmem => ?_⟩
  obtain ⟨i, hi, rfl⟩ := Array.getElem_of_mem hmem
  rw [Array.size_setIfInBounds] at hi
  rw [Array.getElem_setIfInBounds hi]
  split
  case isTrue heq =>
    subst heq
    rw [hpath, World.handle, Array.getD_eq_getD_getElem?, Array.getElem?_eq_getElem hi]
    exact h.paths _ (Array.getElem_mem hi)
  case isFalse => exact h.paths _ (Array.getElem_mem hi)

/-! ## Keys -/

/-- Archives are registered under paths from the root. -/
theorem Store.isAbsolute_key {fs : FileSystem} {path key : String}
    (h : Store.key fs path = .ok key) :
    FileSystem.Path.isAbsolute key = true := by
  rw [Store.key] at h
  split at h
  case h_1 key' hcanonical =>
    cases h
    obtain ⟨location, node, -, rfl⟩ := FileSystem.canonical_eq_ok_iff.1 hcanonical
    exact FileSystem.isAbsolute_pathOf location
  case h_2 =>
    split at h
    · contradiction
    · cases h
      exact FileSystem.Path.isAbsolute_absolute (FileSystem.isAbsolute_pathOf _) path

/-! ## What uses leave alone -/

/-- Asking for a handle changes no file, and a handle that is opened has a path from the root. -/
theorem Sound.handle (h : Sound world) (store : Store) (path : String) :
    Sound (store.handle world path).2.1 ∧ (store.handle world path).2.1.files = world.files := by
  rw [Store.handle]
  cases hkey : Store.key world.files path with
  | error e => exact ⟨h, rfl⟩
  | ok key =>
    dsimp only
    split
    case h_1 => exact ⟨h, rfl⟩
    case h_2 =>
      rw [World.openArchive]
      cases hopen : Handle.openAt world.files key with
      | error e => exact ⟨h, rfl⟩
      | ok handle =>
        refine ⟨⟨h.files, fun handle' hmem => ?_⟩, rfl⟩
        rcases Array.mem_push.1 hmem with hold | rfl
        · exact h.paths handle' hold
        · obtain ⟨file, directory, -, -, -, rfl⟩ := Handle.openAt_eq_ok_iff.1 hopen
          exact Store.isAbsolute_key hkey

/-- Writing through a handle changes no file, and no path of a handle. -/
theorem Sound.writeEntry (h : Sound world) (id : HandleId) (entry : String) (bytes : Bytes) :
    Sound (world.writeEntry id entry bytes).1
      ∧ (world.writeEntry id entry bytes).1.files = world.files := by
  rw [World.writeEntry, Handle.write]
  cases (world.handle id).source with
  | none => exact ⟨h, rfl⟩
  | some source => exact ⟨h.setIfInBounds id (by rfl) h.files _, rfl⟩

/-- A use that closes nothing changes no file. -/
theorem Sound.apply (h : Sound world) {use : Use} (hcloses : use.closes = false) :
    Sound (use.apply store world).2 ∧ (use.apply store world).2.files = world.files := by
  cases use with
  | handle path => exact h.handle store path
  | read path entry =>
    rw [Use.apply_read]
    exact h.handle store path
  | write path entry bytes =>
    obtain ⟨hsound, hfiles⟩ := h.handle store path
    rw [Use.apply, Store.write]
    generalize store.handle world path = result at hsound hfiles ⊢
    obtain ⟨store', world', result⟩ := result
    cases result with
    | error e => exact ⟨hsound, hfiles⟩
    | ok id =>
      obtain ⟨hsound', hfiles'⟩ := hsound.writeEntry id entry bytes
      exact ⟨hsound', hfiles'.trans hfiles⟩
  | openHandles => exact ⟨h, rfl⟩
  | readHandle id entry => exact ⟨h, rfl⟩
  | writeHandle id entry bytes => exact h.writeEntry id entry bytes
  | closeHandle id => contradiction
  | closeAll => contradiction
  | drop => contradiction

end Archive

end Reline
