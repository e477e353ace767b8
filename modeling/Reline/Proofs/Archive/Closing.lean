/-
  Reline.Proofs.Archive.Closing

  What closing handles may change in the file system.

  Each handle that is closed with staged writes has its archive rewritten, in the
  file system that those before it left behind. Whether the rewrites succeed or
  fail, a place that none of them touches keeps what stands there, with the data
  and permissions of a file. If no file and no link stands beside a rewritten
  archive, no other place is touched than that of the archive. A file that stands
  there is lost.

  Main statement: `sameAt_run`.
-/

import Reline.Proofs.Archive.Rewriting
import Reline.Proofs.Archive.Run
import Reline.Proofs.Archive.Store

namespace Reline.Archive

open FileSystem

/-! ## Rewrites -/

/-- A rewrite of an archive: the file system at its beginning, and the path of the handle. -/
structure Rewrite where
  files : FileSystem
  path : String

/-- The rewrite that closing a handle causes. -/
def closeRewrites (world : World) (id : HandleId) : List Rewrite :=
  match (world.handle id).source with
  | none => []
  | some _ =>
    if (world.handle id).staged.isEmpty then [] else [⟨world.files, (world.handle id).path⟩]

/-- The rewrites that closing the handles of cells in turn causes. -/
def cellRewrites (world : World) : List Cell → List Rewrite
  | [] => []
  | ⟨_, none⟩ :: rest => cellRewrites world rest
  | ⟨_, some id⟩ :: rest => closeRewrites world id ++ cellRewrites (world.closeHandle id).1 rest

/-- The rewrites that a use causes. -/
def Use.rewrites (store : Store) (world : World) : Use → List Rewrite
  | closeHandle id => closeRewrites world id
  | closeAll | drop => cellRewrites world store.ordered
  | _ => []

/-- The rewrites that uses in turn cause. -/
def runRewrites (store : Store) (world : World) : List Use → List Rewrite
  | [] => []
  | use :: uses =>
    use.rewrites store world
      ++ runRewrites (use.apply store world).1 (use.apply store world).2 uses

/-! ## What rewrites change -/

variable {store : Store} {world world' : World}

/-- A world that came of another by rewrites, and differs from it at no place that they do not
touch. -/
structure Changes (world world' : World) (rewrites : List Rewrite) : Prop where
  sound : Sound world'
  same : ∀ l, (∀ r ∈ rewrites, ¬ Touches r.files r.path l) → SameAt world.files world'.files l

theorem Changes.of_files_eq (h : Sound world') (hfiles : world'.files = world.files) :
    Changes world world' [] where
  sound := h
  same l _ := hfiles ▸ .refl _ l

theorem Changes.trans {world'' : World} {rewrites rewrites' : List Rewrite}
    (h : Changes world world' rewrites) (h' : Changes world' world'' rewrites') :
    Changes world world'' (rewrites ++ rewrites') where
  sound := h'.sound
  same l hl := by
    rw [List.forall_mem_append] at hl
    exact (h.same l hl.1).trans (h'.same l hl.2)

/-- Records in the log make no difference. -/
theorem Changes.of_logged {world'' : World} {rewrites : List Rewrite}
    (h : Changes world world' rewrites) (hfiles : world''.files = world'.files)
    (hhandles : world''.handles = world'.handles) : Changes world world'' rewrites where
  sound := h.sound.of_eq hhandles hfiles
  same l hl := hfiles ▸ h.same l hl

/-! ## Closing a handle -/

/-- Closing a handle rewrites its archive, or changes no file. -/
theorem changes_closeHandle (h : Sound world) (id : HandleId) :
    Changes world (world.closeHandle id).1 (closeRewrites world id) := by
  have habsolute := h.isAbsolute id
  rw [World.closeHandle, Handle.close, closeRewrites]
  cases hsource : (world.handle id).source with
  | none => exact .of_files_eq (h.setIfInBounds id (by rfl) h.files _) rfl
  | some source =>
    dsimp only
    split
    case isTrue => exact .of_files_eq (h.setIfInBounds id (by rfl) h.files _) rfl
    case isFalse =>
      have habsolute := habsolute (hsource ▸ Option.some_ne_none _)
      have hflush := Handle.flushes_flush source (world.handle id).staged
        h.files habsolute
      refine ⟨h.setIfInBounds id (by rfl) ?_ _, fun l hl => ?_⟩
      · exact Handle.wellFormed_of_flushes h.files habsolute hflush
      · exact Handle.sameAt_of_flushes h.files habsolute hflush
          (hl _ (List.mem_singleton_self _))

/-! ## Closing a store -/

theorem cellRewrites_congr (hfiles : world'.files = world.files)
    (hhandles : world'.handles = world.handles) (cells : List Cell) :
    cellRewrites world' cells = cellRewrites world cells := by
  have hrecord (world : World) (log : List Log.Message) :
      cellRewrites { world with log } cells = cellRewrites world cells := by
    induction cells generalizing world with
    | nil => rfl
    | cons cell rest ih =>
      obtain ⟨key, handle⟩ := cell
      cases handle with
      | none => exact ih world
      | some id =>
        -- closing a handle does not look at the log
        have hclose : ({ world with log }.closeHandle id).1
            = { (world.closeHandle id).1 with log } := rfl
        rw [cellRewrites, cellRewrites, hclose, ih]
        rfl
  obtain ⟨files, handles, log⟩ := world
  obtain ⟨files', handles', log'⟩ := world'
  cases hfiles
  cases hhandles
  exact hrecord ⟨files, handles, log⟩ log'

/-- Closing the handles of cells changes what their rewrites touch, whatever becomes of each. -/
theorem changes_closeCells (h : Sound world) (cells : List Cell) :
    Changes world (Store.closeCells world cells).1 (cellRewrites world cells) := by
  induction cells generalizing world with
  | nil => exact .of_files_eq h rfl
  | cons cell rest ih =>
    obtain ⟨key, handle⟩ := cell
    cases handle with
    | none => exact ih h
    | some id =>
      obtain ⟨next, hhandles, hfiles, hcells⟩ := Store.exists_closeCells_cons world key id rest
      have hclose : Changes world next (closeRewrites world id) :=
        (changes_closeHandle h id).of_logged hfiles hhandles
      have hrest := hclose.trans (ih hclose.sound)
      rw [cellRewrites_congr hfiles hhandles] at hrest
      rw [hcells, cellRewrites]
      exact hrest

theorem files_drop (store : Store) (world : World) :
    (store.drop world).files = (store.closeAll world).2.1.files
      ∧ (store.drop world).handles = (store.closeAll world).2.1.handles := by
  rw [Store.drop]
  generalize store.closeAll world = closed
  obtain ⟨store', world', failures⟩ := closed
  dsimp only
  induction failures generalizing world' with
  | nil => exact ⟨rfl, rfl⟩
  | cons failure failures ih =>
    rw [List.foldl_cons]
    exact ih _

/-! ## Runs -/

/-- A use changes what its rewrites touch. -/
theorem changes_apply (h : Sound world) (store : Store) (use : Use) :
    Changes world (use.apply store world).2 (use.rewrites store world) := by
  have hquiet (hcloses : use.closes = false) : Changes world (use.apply store world).2 [] :=
    .of_files_eq (h.apply hcloses).1 (h.apply hcloses).2
  have hclose := changes_closeCells h store.ordered
  cases use with
  | handle path => exact hquiet rfl
  | read path entry => exact hquiet rfl
  | write path entry bytes => exact hquiet rfl
  | openHandles => exact hquiet rfl
  | readHandle id entry => exact hquiet rfl
  | writeHandle id entry bytes => exact hquiet rfl
  | closeHandle id => exact changes_closeHandle h id
  | closeAll => exact hclose
  | drop =>
    obtain ⟨hfiles, hhandles⟩ := files_drop store world
    exact hclose.of_logged hfiles hhandles

/-- A run changes what its rewrites touch. -/
theorem changes_run (h : Sound world) (store : Store) (uses : List Use) :
    Changes world (run store world uses).2 (runRewrites store world uses) := by
  induction uses generalizing store world with
  | nil => exact .of_files_eq h rfl
  | cons use uses ih =>
    have hfirst := changes_apply h store use
    exact hfirst.trans (ih hfirst.sound _)

/-- From wherever a run has led, further uses change only what their rewrites touch: the place of
each archive with staged writes that is closed, and what stands beside it if that is a file or a
link. If none stands there, it is the places of the archives alone. -/
theorem sameAt_run {files : FileSystem} (hfiles : WellFormed files) {uses : List Use}
    (hrun : run .empty (.ofFiles files) uses = (store, world)) (more : List Use) (l : Location) :
    ((∀ r ∈ runRewrites store world more, ¬ Touches r.files r.path l) →
        SameAt world.files (run store world more).2.files l)
      ∧ ((∀ r ∈ runRewrites store world more, ∀ there, ¬ StandsBeside r.files r.path there) →
        (∀ r ∈ runRewrites store world more, ¬ NamesPlace r.files r.path l) →
          SameAt world.files (run store world more).2.files l) := by
  have hsound : Sound world := by
    have hchanges := changes_run (sound_ofFiles hfiles) .empty uses
    rw [hrun] at hchanges
    exact hchanges.sound
  have hmore := (changes_run hsound store more).same l
  refine ⟨hmore, fun hvacant hplace => hmore fun r hr htouched => ?_⟩
  exact hplace r hr (htouched.archive_of_forall (hvacant r hr))

/-! ## An archive with a file beside it -/

/-- An archive of one entry, the file at the place at which it is built anew, and another file. -/
def besideFiles : FileSystem :=
  { nodes := [(["lib.jar"], .file 0), (["lib.jar.tmp"], .file 1), (["notes"], .file 2)]
    files := #[
      ⟨(Zip.encode [.ofData "a" .stored Zip.defaultDate 0 Zip.defaultMode [1]] []).toArray,
        newFileMode, .disk⟩,
      ⟨#[107, 101, 101, 112], newFileMode, .disk⟩, ⟨#[0], newFileMode, .disk⟩]
    current := [] }

/-- The store and the world after a write to the entry. -/
def besideState : Store × World :=
  run .empty (.ofFiles besideFiles) [.write "lib.jar" "a" [2]]

theorem run_besideFiles : run .empty (.ofFiles besideFiles) [.write "lib.jar" "a" [2]]
    = (besideState.1, besideState.2) := by
  rw [Prod.mk.eta, besideState]

theorem wellFormed_besideFiles : WellFormed besideFiles :=
  wellFormed_of_forall (by simp [besideFiles]) (by simp [besideFiles])

/-- The archive is rewritten, and the file beside it is in the way. -/
theorem resolve_besideState :
    ∀ r ∈ runRewrites besideState.1 besideState.2 [.closeAll],
      r.files.resolve .entry r.path = .ok (.found ["lib.jar"] (.file 0) false)
        ∧ r.files.resolve .entry (Handle.temporaryPath r.path)
          = .ok (.found ["lib.jar.tmp"] (.file 1) false)
        ∧ r.files.resolve .create (Handle.temporaryPath r.path)
          = .ok (.found ["lib.jar.tmp"] (.file 1) false)
        ∧ r.files.node? ["notes"] = some (.file 2) := by
  decide +kernel

/-- A file that is neither the archive nor beside it stays as it is. -/
theorem sameAt_run_notes :
    SameAt besideState.2.files (run besideState.1 besideState.2 [.closeAll]).2.files ["notes"] := by
  refine (sameAt_run wellFormed_besideFiles run_besideFiles [.closeAll] ["notes"]).1 ?_
  intro r hr htouched
  obtain ⟨harchive, hbeside, hcreate, hnotes⟩ := resolve_besideState r hr
  cases htouched with
  | archive here =>
    rcases here with ⟨node, slash, hfound⟩ | ⟨slash, hvacant⟩
    · exact absurd (harchive.symm.trans hfound) (by simp)
    · cases harchive.symm.trans hvacant
  | beside here =>
    obtain ⟨node, slash, hfound, -⟩ := here
    exact absurd (hbeside.symm.trans hfound) (by simp)
  | behind stood leads => cases hcreate.symm.trans leads
  | named leads here =>
    cases hcreate.symm.trans leads
    cases hnotes.symm.trans here

/-- It is not so that closing changes the places of archives only: the file beside the archive is
gone, though no handle has its path. -/
theorem not_forall_sameAt_of_not_namesPlace :
    ¬ ∀ (files : FileSystem) (uses more : List Use) (store : Store) (world : World) (l : Location),
      WellFormed files → run .empty (.ofFiles files) uses = (store, world) →
        (∀ r ∈ runRewrites store world more, ¬ NamesPlace r.files r.path l) →
          SameAt world.files (run store world more).2.files l := by
  intro h
  have hsame := h besideFiles [.write "lib.jar" "a" [2]] [.closeAll] besideState.1 besideState.2
    ["lib.jar.tmp"] wellFormed_besideFiles run_besideFiles <| by
      intro r hr hnames
      obtain ⟨harchive, -⟩ := resolve_besideState r hr
      rcases hnames with ⟨node, slash, hfound⟩ | ⟨slash, hvacant⟩
      · exact absurd (harchive.symm.trans hfound) (by simp)
      · cases harchive.symm.trans hvacant
  have hbefore : besideState.2.files.node? ["lib.jar.tmp"] = some (.file 1) := by decide +kernel
  have hafter : (run besideState.1 besideState.2 [.closeAll]).2.files.node? ["lib.jar.tmp"]
      = none := by decide +kernel
  have hnode := hsame.node
  rw [hbefore, hafter] at hnode
  cases hnode

end Reline.Archive
