/-
  Reline.Proofs.Archive.Pending

  What closing handles has to put into files.

  A handle has something to put into its archive's file if it is open and
  something is staged in it. Closing it is a flush of that, and nothing else. So
  what becomes of the files when a store is closed, and which failures it reports,
  is determined by what is pending under each of its keys: in which order the
  archives were registered, and under which numbers, makes no difference.

  Main statements: `Store.Distinct.closeAll_eq`, `Store.Distinct.closeAll_congr`.
-/

import Reline.Proofs.Archive.Independence

namespace Reline.Archive

open FileSystem

variable {store store' : Store} {world world' : World} {id : HandleId}

/-! ## One handle -/

/-- What an archive's file has to be rewritten with. -/
structure Pending where
  path : String
  source : Source
  staged : OrderedTable String Bytes

/-- Puts what is pending into the archive's file. -/
def Pending.flush (fs : FileSystem) (pending : Pending) : FileSystem × Except Error Unit :=
  Handle.flush fs pending.source pending.staged pending.path

/-- What closing a handle has to put into its archive's file, if there is anything. -/
def Handle.pending? (handle : Handle) : Option Pending :=
  handle.source.bind fun source =>
    if handle.staged.isEmpty then none else some ⟨handle.path, source, handle.staged⟩

@[simp] theorem Handle.pending?_of_closed {handle : Handle} (h : handle.source = none) :
    handle.pending? = none := by
  rw [pending?, h, Option.bind_none]

@[simp] theorem Handle.pending?_of_isEmpty {handle : Handle} (h : handle.staged.isEmpty = true) :
    handle.pending? = none := by
  rw [pending?]
  cases handle.source with
  | none => rfl
  | some source => rw [Option.bind_some, if_pos h]

/-- Closing a handle flushes what is pending, and nothing else. -/
theorem Handle.close_eq_flush (handle : Handle) (fs : FileSystem) :
    (handle.close fs).2
      = match handle.pending? with
        | none => (fs, .ok ())
        | some pending => pending.flush fs := by
  cases hsource : handle.source with
  | none => rw [pending?_of_closed hsource, close, hsource]
  | some source =>
    cases hstaged : handle.staged.isEmpty with
    | true => rw [pending?_of_isEmpty hstaged, (close_of_isEmpty hstaged fs).1]
    | false =>
      rw [close_eq hsource hstaged, pending?, hsource, Option.bind_some, if_neg (by simp [hstaged])]
      rfl

theorem closeHandle_eq_flush (world : World) (id : HandleId) :
    ((world.closeHandle id).1.files, (world.closeHandle id).2)
      = match (world.handle id).pending? with
        | none => (world.files, .ok ())
        | some pending => pending.flush world.files :=
  (world.handle id).close_eq_flush world.files

/-! ## Cells in turn -/

/-- Puts what is pending under keys into files in turn, giving the failures. -/
def flushAll (fs : FileSystem) : List (String × Pending) → FileSystem × List CloseFailure
  | [] => (fs, [])
  | (key, pending) :: rest =>
    match pending.flush fs with
    | (fs, .ok ()) => flushAll fs rest
    | (fs, .error error) =>
      let (fs, failures) := flushAll fs rest
      (fs, ⟨key, error⟩ :: failures)

/-- What is pending under the key of a cell. -/
def Cell.due? (world : World) (cell : Cell) : Option (String × Pending) :=
  (cell.handle.bind fun id => (world.handle id).pending?).map (cell.key, ·)

/-- What is pending under the keys of cells. -/
def due (world : World) (cells : List Cell) : List (String × Pending) :=
  cells.filterMap (Cell.due? world)

theorem Cell.due?_eq_some_iff {cell : Cell} {key : String} {pending : Pending} :
    cell.due? world = some (key, pending)
      ↔ cell.key = key
        ∧ ∃ id, cell.handle = some id ∧ (world.handle id).pending? = some pending := by
  simp only [due?, Option.map_eq_some_iff, Option.bind_eq_some_iff, Prod.mk.injEq]
  exact ⟨fun ⟨_, hpending, hkey, heq⟩ => ⟨hkey, heq ▸ hpending⟩,
    fun ⟨hkey, hpending⟩ => ⟨pending, hpending, hkey, rfl⟩⟩

/-- Cells of other handles have the same pending when a handle is closed. -/
theorem due_congr {cells : List Cell}
    (h : ∀ cell ∈ cells, ∀ i, cell.handle = some i → world'.handle i = world.handle i) :
    due world' cells = due world cells := by
  refine List.filterMap_congr fun cell hcell => ?_
  rw [Cell.due?, Cell.due?]
  cases hid : cell.handle with
  | none => rfl
  | some i => rw [Option.bind_some, Option.bind_some, h cell hcell i hid]

/-- Closing handles in turn flushes what is pending under the keys of their cells. -/
theorem closeCells_eq_flushAll {cells : List Cell}
    (hapart : cells.Pairwise fun a b => ∀ id, a.handle = some id → b.handle ≠ some id)
    (world : World) :
    ((Store.closeCells world cells).1.files, (Store.closeCells world cells).2)
      = flushAll world.files (due world cells) := by
  induction cells generalizing world with
  | nil => rfl
  | cons cell rest ih =>
    obtain ⟨hother, hrest⟩ := List.pairwise_cons.1 hapart
    obtain ⟨key, handle⟩ := cell
    cases handle with
    | none => exact ih hrest world
    | some id =>
      obtain ⟨next, hhandles, hfiles, hcells⟩ := Store.exists_closeCells_cons world key id rest
      -- closing a handle leaves what is pending in the others
      have hkept : due next rest = due world rest := by
        refine due_congr fun other hmem i hi => ?_
        have hne : i ≠ id := by
          rintro rfl
          exact hother other hmem i rfl hi
        rw [World.handle, hhandles, ← World.handle, Store.handle_closeHandle, if_neg hne]
      have hnext := ih hrest next
      rw [hkept, hfiles] at hnext
      have hclose := closeHandle_eq_flush world id
      have hdue : due world (⟨key, some id⟩ :: rest)
          = ((world.handle id).pending?.map (key, ·)).toList ++ due world rest := by
        rw [due, List.filterMap_cons, Cell.due?, Option.bind_some]
        cases (world.handle id).pending? <;> rfl
      rw [hcells, hdue]
      dsimp only
      cases hpending : (world.handle id).pending? with
      | none =>
        rw [hpending, Prod.mk.injEq] at hclose
        rw [hclose.1] at hnext
        rw [hclose.2]
        exact hnext
      | some pending =>
        rw [hpending] at hclose
        dsimp only [Option.map_some, Option.toList_some, List.singleton_append] at hclose ⊢
        rw [flushAll, ← hclose]
        cases (world.closeHandle id).2 with
        | error error =>
          dsimp only
          rw [← hnext]
        | ok done => exact hnext

/-! ## Stores -/

/-- The store without the cell of a handle. -/
def Store.without (store : Store) (id : HandleId) : Store :=
  ⟨store.cells.filter fun cell => cell.handle ≠ some id⟩

theorem Store.Distinct.without (h : store.Distinct) (id : HandleId) :
    (store.without id).Distinct :=
  ⟨h.keys.filter _, h.handles.filter _⟩

/-- Closing a store flushes what is pending under its keys, in their order. -/
theorem Store.Distinct.closeAll_eq (h : store.Distinct) (world : World) :
    ((store.closeAll world).2.1.files, (store.closeAll world).2.2)
      = flushAll world.files (due world store.ordered) :=
  closeCells_eq_flushAll h.pairwise_ordered.2 world

theorem mem_due_iff {cells : List Cell} {key : String} {pending : Pending} :
    (key, pending) ∈ due world cells ↔ ∃ cell ∈ cells, cell.key = key
      ∧ ∃ id, cell.handle = some id ∧ (world.handle id).pending? = some pending := by
  simp only [due, List.mem_filterMap, Cell.due?_eq_some_iff]

theorem mem_due_ordered_iff {d : String × Pending} :
    d ∈ due world store.ordered ↔ d ∈ due world store.cells := by
  simp only [due, List.mem_filterMap, Store.ordered, List.mem_mergeSort]

/-- What is pending is listed in the order of the keys, which name different places. -/
theorem Store.Distinct.pairwise_due (h : store.Distinct) (world : World) :
    (due world store.ordered).Pairwise fun a b =>
      namesLe (Path.names a.1) (Path.names b.1) = true ∧ ¬ sameKey a.1 b.1 = true := by
  rw [due, List.pairwise_filterMap]
  refine (store.pairwise_ordered.and h.pairwise_ordered.1).imp fun {a b} hab x hx y hy => ?_
  obtain ⟨hkey, -⟩ := Cell.due?_eq_some_iff.1 hx
  obtain ⟨hkey', -⟩ := Cell.due?_eq_some_iff.1 hy
  rw [← hkey, ← hkey']
  exact hab

theorem Store.namesLe_antisymm (as bs : List String) (hab : namesLe as bs = true)
    (hba : namesLe bs as = true) : as = bs := by
  induction as generalizing bs with
  | nil =>
    cases bs with
    | nil => rfl
    | cons b bs => contradiction
  | cons a as ih =>
    cases bs with
    | nil => contradiction
    | cons b bs =>
      by_cases heq : a = b
      · rw [namesLe, if_pos heq] at hab
        rw [namesLe, if_pos heq.symm] at hba
        rw [heq, ih bs hab hba]
      · rw [namesLe_cons_iff heq] at hab
        rw [namesLe_cons_iff (Ne.symm heq)] at hba
        have hlt : a < b := hab.2.resolve_left hba.1
        have hgt : b < a := hba.2.resolve_left hab.1
        exact absurd (String.lt_trans hlt hgt) (String.lt_irrefl a)

/-- Stores with the same pending under their keys are closed alike. -/
theorem Store.Distinct.closeAll_congr (h : store.Distinct) (h' : store'.Distinct)
    (hfiles : world.files = world'.files)
    (hdue : ∀ d, d ∈ due world store.cells ↔ d ∈ due world' store'.cells) :
    ((store.closeAll world).2.1.files, (store.closeAll world).2.2)
      = ((store'.closeAll world').2.1.files, (store'.closeAll world').2.2) := by
  have hnodup {store : Store} (h : store.Distinct) (world : World) :
      (due world store.ordered).Nodup :=
    (h.pairwise_due world).imp fun {a b} hab heq => hab.2 (sameKey_iff.2 (by rw [heq]))
  have hperm : (due world store.ordered).Perm (due world' store'.ordered) := by
    refine (List.perm_ext_iff_of_nodup (hnodup h world) (hnodup h' world')).2 fun d => ?_
    rw [mem_due_ordered_iff, mem_due_ordered_iff, hdue]
  -- the order of the keys leaves one way to list what is pending
  have heq := hperm.eq_of_pairwise (fun a b _ _ hab hba => absurd
    (sameKey_iff.2 (namesLe_antisymm _ _ hab.1 hba.1)) hab.2) (h.pairwise_due world)
    (h'.pairwise_due world')
  rw [h.closeAll_eq, h'.closeAll_eq, heq, hfiles]

end Reline.Archive
