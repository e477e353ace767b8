/-
  Reline.Proofs.Archive.Backing

  The data that open handles read from.

  An open handle reads from the file that was there when it was opened, whatever
  became of its place. The data of that file is never lost: in each world that
  events lead to, it is there under the number that the handle keeps.

  Main statement: `Runs.backed`.
-/

import Reline.Proofs.Archive.Registry

namespace Reline.Archive

open FileSystem

variable {store store' : Store} {world world' : World} {path : String} {events : List Event}

/-! ## Numbers of files -/

/-- A flush takes no file's number away. -/
theorem Handle.size_le_of_flushes {fs fs' : FileSystem} {result : Except Error Unit}
    (h : Flushes fs path fs' result) : fs.files.size ≤ fs'.files.size := by
  cases h with
  | refused => exact Nat.le_refl _
  | cleared removal =>
    obtain ⟨there, node, -, -, rfl⟩ := exists_of_removeFile removal
    exact Nat.le_refl _
  | moved creation filling move =>
    obtain ⟨source, node, there, -, -, rfl⟩ := exists_of_renameFile move
    exact Nat.le_trans creation.grows (Nat.le_of_eq filling.size.symm)
  | withdrawn creation filling removal =>
    obtain ⟨there, node, -, -, rfl⟩ := exists_of_removeFile removal
    exact Nat.le_trans creation.grows (Nat.le_of_eq filling.size.symm)
  | left creation filling removal =>
    exact Nat.le_trans creation.grows (Nat.le_of_eq filling.size.symm)

theorem size_le_closeHandle (h : Sound world) (id : HandleId) :
    world.files.files.size ≤ (world.closeHandle id).1.files.files.size := by
  have habsolute := h.isAbsolute id
  rw [World.closeHandle, Handle.close]
  cases hsource : (world.handle id).source with
  | none => exact Nat.le_refl _
  | some source =>
    dsimp only
    split
    case isTrue => exact Nat.le_refl _
    case isFalse =>
      have habsolute := habsolute (hsource ▸ Option.some_ne_none _)
      exact Handle.size_le_of_flushes (Handle.flushes_flush source _ h.files habsolute)

theorem size_le_closeCells (h : Sound world) (cells : List Cell) :
    world.files.files.size ≤ (Store.closeCells world cells).1.files.files.size := by
  induction cells generalizing world with
  | nil => exact Nat.le_refl _
  | cons cell rest ih =>
    obtain ⟨key, handle⟩ := cell
    cases handle with
    | none => exact ih h
    | some id =>
      obtain ⟨next, hhandles, hfiles, hcells⟩ := Store.exists_closeCells_cons world key id rest
      have hsize := size_le_closeHandle h id
      rw [← hfiles] at hsize
      rw [hcells]
      exact Nat.le_trans hsize (ih ((changes_closeHandle h id).sound.of_eq hhandles hfiles))

/-- No use takes a file's number away. -/
theorem size_le_apply (h : Sound world) (store : Store) (use : Use) :
    world.files.files.size ≤ (use.apply store world).2.files.files.size := by
  by_cases hcloses : use.closes = false
  · exact Nat.le_of_eq (congrArg (·.files.size) (h.apply hcloses).2.symm)
  · cases use with
    | closeHandle id => exact size_le_closeHandle h id
    | closeAll => exact size_le_closeCells h store.ordered
    | drop =>
      rw [Use.apply, (files_drop store world).1]
      exact size_le_closeCells h store.ordered
    | _ => exact absurd rfl hcloses

/-! ## Sources -/

/-- Whether the data that each open handle reads from is there. -/
def Backed (world : World) : Prop :=
  ∀ id source, (world.handle id).source = some source → source.file < world.files.files.size

theorem backed_ofFiles (files : FileSystem) : Backed (.ofFiles files) := nofun

theorem Backed.of_remains (h : Backed world) (hremains : Remains world world')
    (hsize : world.files.files.size ≤ world'.files.files.size) : Backed world' := by
  intro id source hsource
  rcases hremains.source id with hclosed | hsame
  · rw [hclosed] at hsource
    contradiction
  · exact Nat.lt_of_lt_of_le (h id source (hsame.symm.trans hsource)) hsize

theorem Backed.of_asks (h : Backed world) (hsound : Sound world) {result : Except Error HandleId}
    (hasks : store.Asks world path store' world' result) :
    Backed world' ∧ world'.files = world.files := by
  cases hasks with
  | invalid keyed => exact ⟨h, rfl⟩
  | held keyed held => exact ⟨h, rfl⟩
  | refused keyed vacant refusal => exact ⟨h, rfl⟩
  | opened keyed vacant opening =>
    obtain ⟨file, directory, hfile, -, -, rfl⟩ := Handle.openAt_eq_ok_iff.1 opening
    refine ⟨fun id source hsource => ?_, rfl⟩
    rw [World.handle_push] at hsource
    split at hsource
    case isFalse => exact h id source hsource
    case isTrue =>
      cases hsource
      -- the file that was opened stands at its place
      obtain ⟨l, hinspect⟩ := openFile_eq_ok_some_iff.1 hfile
      exact hsound.files.data l file
        (node?_of_inspect (Store.isAbsolute_key keyed) hinspect).2

theorem Backed.apply (h : Backed world) (hsound : Sound world) (store : Store) (use : Use) :
    Backed (use.apply store world).2 := by
  have hdoes := use.does store world
  have hsize := size_le_apply hsound store use
  generalize (use.apply store world).1 = store' at hdoes
  generalize (use.apply store world).2 = world' at hdoes hsize ⊢
  cases hdoes with
  | asks closes asks stays =>
    obtain ⟨hasked, hfiles⟩ := h.of_asks hsound asks
    refine hasked.of_remains stays.remains ?_
    rw [hfiles]
    exact hsize
  | passes closes stays => exact h.of_remains stays.remains hsize
  | closes id => exact h.of_remains (remains_closeHandle ..) hsize
  | forgets forgets remains closed => exact h.of_remains remains hsize

/-- In any run, the data that open handles read from is there. -/
theorem Runs.backed {files : FileSystem} (h : Runs .empty (.ofFiles files) events store world)
    (hfiles : WellFormed files) : Backed world := by
  induction h with
  | start => exact backed_ofFiles files
  | use before use given ih => exact ih.apply (before.sound (sound_ofFiles hfiles)) _ use
  | change before outside ih => exact ih.of_remains (.of_handles_eq rfl) outside.size

end Reline.Archive
