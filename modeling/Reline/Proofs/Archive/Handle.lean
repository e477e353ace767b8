/-
  Reline.Proofs.Archive.Handle

  What a handle answers, and what closing it does.

  A read is answered by the last write that is staged for its entry, and else by
  what the archive contains; the only thing that an answer says of the place of
  the archive is the path in its error. Closing a handle with nothing staged
  changes no file.
-/

import Reline.Archive.Handle
import Reline.Proofs.OrderedTable
import Reline.Proofs.Zip.Contents

namespace Reline.Archive.Handle

open Zip (Entry lastContent)

variable {fs : FileSystem} {handle : Handle} {source : Source}

/-- When an archive opens, and what its handle is then. -/
theorem openAt_eq_ok_iff {path : String} :
    openAt fs path = .ok handle
      ↔ ∃ file directory, fs.openFile path = .ok (some file) ∧ (fs.data file).medium = .disk
        ∧ Zip.Directory.read (fs.data file).bytes = .ok directory
        ∧ handle = ⟨path, some ⟨file, (fs.data file).bytes.size, directory⟩, ∅⟩ := by
  rw [openAt]
  constructor
  · intro h
    split at h
    case h_1 => contradiction
    case h_2 => contradiction
    case h_3 => contradiction
    case h_4 file hfile =>
      dsimp only at h
      split at h
      case isTrue => contradiction
      case isFalse hmedium =>
        split at h
        case h_1 => contradiction
        case h_2 directory hread =>
          cases h
          exact ⟨file, directory, hfile, Decidable.not_not.1 hmedium, hread, rfl⟩
  · rintro ⟨file, directory, hfile, hmedium, hread, rfl⟩
    rw [hfile]
    dsimp only
    rw [hmedium, hread]
    rfl

/-- An archive that does not open is not said to lack an entry. -/
theorem openAt_ne_entryNotFound (fs : FileSystem) (path path' entry : String) :
    openAt fs path ≠ .error (.entryNotFound path' entry) := by
  rw [openAt]
  split
  case h_1 => nofun
  case h_2 => nofun
  case h_3 => nofun
  case h_4 =>
    dsimp only
    split
    case isTrue => nofun
    case isFalse =>
      split
      case h_1 e _ => cases e <;> nofun
      case h_2 => nofun

/-! ## Answers -/

/-- The answer of the archive at a path about an entry, given what it contains. -/
def answer (path entry : String) : Option (Except Zip.Error Bytes) → Except Error Bytes
  | some content => content.mapError (.ofZip path)
  | none => .error (.entryNotFound path (normalizeEntry entry))

/-- A read is answered from the staged writes, and else from the archive. -/
theorem read_eq (hsource : handle.source = some source) (fs : FileSystem) (entry : String) :
    handle.read fs entry
      = match handle.staged.get? (normalizeEntry entry) with
        | some bytes => .ok bytes
        | none => answer handle.path entry
            (lastContent Entry.name (Entry.read · (source.bytes fs)) source.directory.entries
              (normalizeEntry entry)) := by
  rw [read, ← Zip.map_read_find?, hsource]
  cases handle.staged.get? (normalizeEntry entry) with
  | some bytes => rfl
  | none =>
    dsimp only
    cases source.directory.find? (normalizeEntry entry) <;> rfl

/-- A handle with nothing staged answers from the archive. -/
theorem read_unstaged (path : String) (source : Source) (fs : FileSystem) (entry : String) :
    (⟨path, some source, ∅⟩ : Handle).read fs entry
      = answer path entry (lastContent Entry.name (Entry.read · (source.bytes fs))
        source.directory.entries (normalizeEntry entry)) := by
  rw [read_eq rfl]
  dsimp only
  rw [OrderedTable.get?_empty]

theorem answer_eq_ok_iff {path entry : String} {content : Option (Except Zip.Error Bytes)}
    {bytes : Bytes} : answer path entry content = .ok bytes ↔ content = some (.ok bytes) := by
  cases content with
  | none => exact ⟨nofun, nofun⟩
  | some content => rw [answer, mapError_eq_ok_iff, Option.some.injEq]

/-- The path in the error about an entry that is missing is that of the archive. -/
theorem path_eq_of_answer {path entry path' entry' : String}
    {content : Option (Except Zip.Error Bytes)}
    (h : answer path entry content = .error (.entryNotFound path' entry')) : path = path' := by
  cases content with
  | none =>
    cases h
    rfl
  | some content =>
    cases content with
    | ok bytes => contradiction
    | error e => cases e <;> cases h

/-! ## Closing -/

theorem close_eq (hsource : handle.source = some source) (hstaged : handle.staged.isEmpty = false)
    (fs : FileSystem) :
    handle.close fs
      = ({ handle with source := none, staged := ∅ },
        flush fs source handle.staged handle.path) := by
  rw [close, hsource]
  dsimp only
  rw [hstaged]
  rfl

/-- With nothing staged, no file changes and nothing is staged afterwards. -/
theorem close_of_isEmpty (hstaged : handle.staged.isEmpty = true) (fs : FileSystem) :
    (handle.close fs).2 = (fs, .ok ()) ∧ (handle.close fs).1.staged.isEmpty = true := by
  rw [close]
  cases hsource : handle.source with
  | none => exact ⟨rfl, hstaged⟩
  | some source =>
    dsimp only
    rw [if_pos hstaged]
    exact ⟨rfl, rfl⟩

end Reline.Archive.Handle
