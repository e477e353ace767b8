/-
  Reline.Proofs.FileSystem.Making

  Creating files and directories by any path.

  A file that is created stands where its path leads to: it stood there before, or
  nothing did. Directories are created one by one, each by a path that is the given
  one or above it. So what the creation of one directory keeps is kept by the
  creation of all, whether or not it succeeds.

  Main statements: `exists_creates`, `createDirectories_induction`.
-/

import Reline.Proofs.FileSystem.Growth

namespace Reline.FileSystem

variable {fs fs' : FileSystem} {path : String}

/-- A file is created where the path leads to, also a path from the current directory. -/
theorem exists_creates (hfiles : WellFormed fs) {id : FileId}
    (h : fs.createFile path = .ok (id, fs')) : ∃ location, Creates fs fs' path location id := by
  rcases exists_of_createFile h with ⟨l, slash, hfound, rfl⟩ | ⟨l, slash, hvacant, rfl, rfl⟩
  · exact ⟨l, creates_of_found hfiles hfound (mem_way_of_found hfound).2⟩
  · exact ⟨l, creates_of_vacant hvacant (mem_way_of_vacant hvacant).2⟩

/-! ## One directory -/

/-- The file system with a new directory at a place. -/
def furnish (fs : FileSystem) (location : Location) : FileSystem :=
  fs.putNode location (.directory newDirectoryMode)

/-- A directory is created at a vacant place. -/
theorem exists_of_createDirectory (h : fs.createDirectory path = .ok fs') :
    ∃ location slash, fs.resolve .entry path = .ok (.vacant location slash)
      ∧ fs' = fs.furnish location := by
  rw [createDirectory] at h
  cases hresolve : fs.resolve .entry path with
  | error e =>
    rw [hresolve] at h
    contradiction
  | ok target =>
    rw [hresolve] at h
    cases target with
    | found => contradiction
    | vacant location slash =>
      cases h
      exact ⟨location, slash, rfl, rfl⟩

theorem wellFormed_furnish (h : WellFormed fs) (location : Location) :
    WellFormed (fs.furnish location) :=
  wellFormed_putNode h location nofun

/-! ## Several directories -/

/-- A path and the paths above it. -/
inductive Above (path : String) : String → Prop where
  | self : Above path path
  | parent {below above : String} (next : Above path below)
    (isParent : Path.parent below = some above) : Above path above

theorem Above.trans {middle above : String} (h : Above path middle) (h' : Above middle above) :
    Above path above := by
  induction h' with
  | self => exact h
  | parent next isParent ih => exact .parent ih isParent

/-- What is kept by the creation of a directory, by a path or one above it, is kept by the creation
of all. -/
theorem createDirectoriesWithin_induction {P : FileSystem → Prop}
    (hcreate : ∀ fs fs' above, Above path above → P fs → fs.createDirectory above = .ok fs' → P fs')
    (depth : Nat) (h : P fs) : P (fs.createDirectoriesWithin path depth).1 := by
  induction depth generalizing path fs with
  | zero => exact h
  | succ depth ih =>
    rw [createDirectoriesWithin]
    split
    case isTrue => exact h
    case isFalse =>
      dsimp only
      split
      case h_1 created hcreated => exact hcreate _ _ _ .self h hcreated
      case h_2 =>
        cases hparent : Path.parent path with
        | none => exact h
        | some above =>
          -- the directories above come first, and then this one is tried again
          have habove : P (fs.createDirectoriesWithin above depth).1 :=
            ih (fun fs fs' path' hpath' =>
              hcreate fs fs' path' (.trans (.parent .self hparent) hpath')) h
          dsimp only
          rcases hwithin : fs.createDirectoriesWithin above depth with ⟨made, e | done⟩
          · rw [hwithin] at habove
            exact habove
          · rw [hwithin] at habove
            dsimp only at habove ⊢
            split
            case h_1 created hcreated => exact hcreate _ _ _ .self habove hcreated
            case h_2 => split <;> exact habove
      case h_3 => split <;> exact h

theorem createDirectories_induction {P : FileSystem → Prop}
    (hcreate : ∀ fs fs' above, Above path above → P fs → fs.createDirectory above = .ok fs' → P fs')
    (h : P fs) : P (fs.createDirectories path).1 :=
  createDirectoriesWithin_induction hcreate _ h

theorem wellFormed_createDirectories (h : WellFormed fs) (path : String) :
    WellFormed (fs.createDirectories path).1 := by
  refine createDirectories_induction (fun fs fs' above _ hfs hcreated => ?_) h
  obtain ⟨location, -, -, rfl⟩ := exists_of_createDirectory hcreated
  exact wellFormed_furnish hfs location

end Reline.FileSystem
