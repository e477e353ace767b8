/-
  Reline.Proofs.Archive.Finality

  Handles after they were closed.

  A read looks at what is staged before it looks whether the handle is open. So that
  a closed handle answers no read depends on nothing being staged in it, and this
  holds in all runs, for closing takes away both, whether or not it succeeds. What
  is closed stays closed, whatever follows, and closing it once more does nothing:
  neither on its own nor with its store, nor when this is given up. The same is
  true of handles with nothing staged. So without a successful write no file ever
  changes.

  Main statement: `final_of_closes`.
-/

import Reline.Proofs.Archive.Liveness
import Reline.Proofs.Archive.Pending
import Reline.Proofs.Archive.Visibility

namespace Reline.Archive

open FileSystem

variable {store store' store₀ : Store} {world world' world₀ : World} {id : HandleId}
  {path : String} {events : List Event} {use : Use}

/-! ## Handles that closing passes over -/

/-- Whether closing a handle succeeds and changes no file, and closing its store, or giving it up,
does as much as it would without this handle. -/
structure Idle (store : Store) (world : World) (id : HandleId) : Prop where
  closeHandle : ((world.closeHandle id).1.files, (world.closeHandle id).2) = (world.files, .ok ())
  closeAll : ((store.closeAll world).2.1.files, (store.closeAll world).2.2)
    = (((store.without id).closeAll world).2.1.files, ((store.without id).closeAll world).2.2)
  drop : (store.drop world).files = ((store.without id).drop world).files

/-- Closing passes over handles with nothing pending. -/
theorem Store.Distinct.idle (h : store.Distinct) (hnone : (world.handle id).pending? = none) :
    Idle store world id := by
  have hdue (d : String × Pending) :
      d ∈ due world store.cells ↔ d ∈ due world (store.without id).cells := by
    obtain ⟨key, pending⟩ := d
    rw [mem_due_iff, mem_due_iff]
    refine exists_congr fun cell => and_congr_left ?_
    rintro ⟨-, i, hid, hpending⟩
    have hother : i ≠ id := by
      rintro rfl
      rw [hnone] at hpending
      contradiction
    rw [Store.without, List.mem_filter]
    simp [hid, hother]
  have hall := h.closeAll_congr (h.without id) rfl hdue
  refine ⟨?_, hall, ?_⟩
  · rw [closeHandle_eq_flush, hnone]
  · rw [(files_drop ..).1, (files_drop ..).1]
    exact congrArg Prod.fst hall

/-! ## Closed handles -/

/-- Whether a handle refuses reads and writes and is not closed again. -/
structure Final (store : Store) (world : World) (id : HandleId) (path : String) : Prop where
  readEntry : ∀ entry, world.readEntry id entry = .error (.closed path)
  writeEntry : ∀ entry bytes, world.writeEntry id entry bytes = (world, .error (.closed path))
  closeHandle : world.closeHandle id = (world, .ok ())
  idle : Idle store world id

/-- A closed handle is not changed by closing it. -/
theorem closeHandle_of_closed (h : (world.handle id).source = none) :
    world.closeHandle id = (world, .ok ()) := by
  have hset : world.handles.setIfInBounds id (world.handle id) = world.handles := by
    refine Array.ext (by simp) fun i hi hi' => ?_
    rw [Array.getElem_setIfInBounds hi']
    split
    case isTrue heq =>
      rw [World.handle, Array.getD_eq_getD_getElem?, heq, Array.getElem?_eq_getElem hi',
        Option.getD_some]
    case isFalse => rfl
  rw [World.closeHandle, Handle.close, h]
  dsimp only
  rw [hset]

theorem Store.Distinct.final (h : store.Distinct) (hunstaged : Unstaged world)
    (hclosed : (world.handle id).source = none) :
    Final store world id (world.handle id).path where
  readEntry entry := by
    rw [World.readEntry, Handle.read, hunstaged id hclosed, hclosed]
    dsimp only
    rw [OrderedTable.get?_empty]
  writeEntry entry bytes := by rw [World.writeEntry, Handle.write, hclosed]
  closeHandle := closeHandle_of_closed hclosed
  idle := h.idle (Handle.pending?_of_closed hclosed)

/-- Whether a use closes a handle that was given. -/
def Use.closesHandle (use : Use) (id : HandleId) : Bool :=
  match use with
  | closeHandle i => i = id
  | closeAll | drop => true
  | _ => false

/-- A use that closes a handle leaves it closed, whether or not that succeeded. -/
theorem Registered.source_apply (h : Registered store world)
    (hcloses : use.closesHandle id = true) :
    ((use.apply store world).2.handle id).source = none := by
  have hempty (hstore : (use.apply store world).1 = .empty) :
      ((use.apply store world).2.handle id).source = none := by
    refine (h.apply use).closed id fun cell hcell => ?_
    rw [hstore] at hcell
    exact absurd hcell List.not_mem_nil
  cases use with
  | closeHandle i =>
    rw [Use.apply, source_closeHandle]
    exact .inl (of_decide_eq_true hcloses).symm
  | closeAll => exact hempty rfl
  | drop => exact hempty rfl
  | handle => contradiction
  | read => contradiction
  | write => contradiction
  | openHandles => contradiction
  | readHandle => contradiction
  | writeHandle => contradiction

/-- A handle that was given keeps its path, and stays closed if it is. -/
theorem Use.Does.path_eq (h : use.Does store world store' world') (hid : id < world.handles.size) :
    (world'.handle id).path = (world.handle id).path
      ∧ ((world.handle id).source = none → (world'.handle id).source = none) := by
  have hremains {world world' : World} (h : Remains world world') :
      (world'.handle id).path = (world.handle id).path
        ∧ ((world.handle id).source = none → (world'.handle id).source = none) :=
    ⟨h.path id, h.closed⟩
  cases h with
  | passes closes stays => exact hremains stays.remains
  | closes i => exact hremains (remains_closeHandle world i)
  | forgets forgets remains closed => exact hremains remains
  | asks closes asks stays =>
    cases asks with
    | invalid keyed => exact hremains stays.remains
    | held keyed held => exact hremains stays.remains
    | refused keyed vacant refusal => exact hremains stays.remains
    | opened keyed vacant opening =>
      obtain ⟨hpath, hclosed⟩ := hremains stays.remains
      rw [World.handle_push, if_neg (Nat.ne_of_lt hid)] at hpath hclosed
      exact ⟨hpath, hclosed⟩

/-- Whatever happens, a handle that was closed stays so. -/
theorem Runs.closed_of_closed (h : Runs store₀ world₀ events store world)
    (hid : id < world₀.handles.size) (hclosed : (world₀.handle id).source = none) :
    (world.handle id).source = none ∧ (world.handle id).path = (world₀.handle id).path := by
  induction h with
  | start => exact ⟨hclosed, rfl⟩
  | @use events store world before use given ih =>
    obtain ⟨hpath, hstays⟩ := (use.does store world).path_eq (Nat.lt_of_lt_of_le hid before.size_le)
    exact ⟨hstays ih.1, hpath.trans ih.2⟩
  | change before outside ih => exact ih

/-- A run can go on. -/
theorem Runs.trans {more : List Event} (h : Runs store₀ world₀ events store world)
    (hmore : Runs store world more store' world') :
    Runs store₀ world₀ (events ++ more) store' world' := by
  induction hmore with
  | start =>
    rw [List.append_nil]
    exact h
  | use before use given ih =>
    rw [← List.append_assoc]
    exact ih.use use given
  | change before outside ih =>
    rw [← List.append_assoc]
    exact ih.change outside

/-! ## Runs without a successful write -/

/-- Whether what has nothing staged still has nothing staged. -/
def KeepsEmpty (world world' : World) : Prop :=
  ∀ id, (world.handle id).staged.isEmpty = true → (world'.handle id).staged.isEmpty = true

theorem KeepsEmpty.of_handles_eq (h : world'.handles = world.handles) :
    KeepsEmpty world world' := fun id hid => by
  rwa [World.handle, h, ← World.handle]

theorem keepsEmpty_closeHandle (world : World) (id : HandleId) :
    KeepsEmpty world (world.closeHandle id).1 := by
  intro i hi
  rw [Store.handle_closeHandle]
  split
  case isTrue heq => exact (Handle.close_of_isEmpty (heq ▸ hi) world.files).2
  case isFalse => exact hi

theorem keepsEmpty_closeCells (world : World) (cells : List Cell) :
    KeepsEmpty world (Store.closeCells world cells).1 := by
  induction cells generalizing world with
  | nil => exact fun _ hid => hid
  | cons cell rest ih =>
    obtain ⟨key, handle⟩ := cell
    cases handle with
    | none => exact ih world
    | some id =>
      obtain ⟨next, hhandles, -, hcells⟩ := Store.exists_closeCells_cons world key id rest
      rw [hcells]
      intro i hi
      exact ih next i (KeepsEmpty.of_handles_eq hhandles i (keepsEmpty_closeHandle world id i hi))

/-- Asking for a handle stages nothing. -/
theorem Store.Asks.keepsEmpty {result : Except Error HandleId}
    (h : store.Asks world path store' world' result) : KeepsEmpty world world' := by
  cases h with
  | invalid keyed => exact fun _ hid => hid
  | held keyed held => exact fun _ hid => hid
  | refused keyed vacant refusal => exact fun _ hid => hid
  | opened keyed vacant opening =>
    intro id hid
    rw [World.handle_push]
    split
    case isTrue =>
      obtain ⟨file, directory, -, -, -, rfl⟩ := Handle.openAt_eq_ok_iff.1 opening
      rfl
    case isFalse => exact hid

/-- A use that makes no successful write stages nothing, and it changes no file if nothing is staged
in the handles that it closes. -/
theorem Use.keepsEmpty (hwritten : use.written store world = [])
    (hstaged : ∀ id, use.closesHandle id = true → (world.handle id).staged.isEmpty = true) :
    KeepsEmpty world (use.apply store world).2
      ∧ (use.apply store world).2.files = world.files := by
  cases use with
  | handle path =>
    have hasks := store.asks world path
    exact ⟨hasks.keepsEmpty, hasks.files_eq⟩
  | read path entry =>
    have hasks := store.asks world path
    rw [Use.apply_read]
    exact ⟨hasks.keepsEmpty, hasks.files_eq⟩
  | write path entry bytes =>
    have hasks := store.asks world path
    have hkept : KeepsEmpty world (store.handle world path).2.1
        ∧ (store.handle world path).2.1.files = world.files := ⟨hasks.keepsEmpty, hasks.files_eq⟩
    rw [Use.written, Store.write] at hwritten
    rw [Use.apply, Store.write]
    generalize store.handle world path = answer at hasks hkept hwritten ⊢
    obtain ⟨store', world', e | id⟩ := answer
    · exact hkept
    · -- a handle was given, so the path has a key and the write would be noted if it succeeded
      obtain ⟨key, hkey, -⟩ := hasks.held_of_ok
      rw [hkey] at hwritten
      dsimp only at hwritten ⊢
      rw [World.writeEntry] at hwritten ⊢
      cases hwrite : (world'.handle id).write entry bytes with
      | error e => exact hkept
      | ok handle =>
        rw [hwrite] at hwritten
        contradiction
  | openHandles => exact ⟨fun _ hid => hid, rfl⟩
  | readHandle id entry => exact ⟨fun _ hid => hid, rfl⟩
  | writeHandle id entry bytes =>
    rw [Use.written, World.writeEntry] at hwritten
    rw [Use.apply, World.writeEntry]
    cases hwrite : (world.handle id).write entry bytes with
    | error e => exact ⟨fun _ hid => hid, rfl⟩
    | ok handle =>
      rw [hwrite] at hwritten
      contradiction
  | closeHandle id =>
    have hclose := Handle.close_of_isEmpty (hstaged id (decide_eq_true rfl)) world.files
    exact ⟨keepsEmpty_closeHandle world id, congrArg Prod.fst hclose.1⟩
  | closeAll =>
    exact ⟨keepsEmpty_closeCells world store.ordered,
      Store.closeCells_of_clean fun _ _ id _ => hstaged id rfl⟩
  | drop =>
    obtain ⟨hfiles, hhandles⟩ := files_drop store world
    refine ⟨fun id hid => KeepsEmpty.of_handles_eq hhandles id
      (keepsEmpty_closeCells world store.ordered id hid), hfiles.trans ?_⟩
    exact Store.closeCells_of_clean fun _ _ id _ => hstaged id rfl

/-- Uses without a successful write change no file if nothing is staged in the handles that they
close. -/
theorem files_run_of_written_eq_nil {uses : List Use} (hwritten : written store world uses = [])
    (hstaged : ∀ use ∈ uses, ∀ id, use.closesHandle id = true →
      (world.handle id).staged.isEmpty = true) :
    (run store world uses).2.files = world.files := by
  induction uses generalizing store world with
  | nil => rfl
  | cons use uses ih =>
    obtain ⟨hfirst, hrest⟩ := List.append_eq_nil_iff.1 hwritten
    obtain ⟨huse, huses⟩ := List.forall_mem_cons.1 hstaged
    obtain ⟨hkept, hfiles⟩ := Use.keepsEmpty hfirst huse
    exact (ih hrest fun use' huse' id hid => hkept id (huses use' huse' id hid)).trans hfiles

/-! ## Closing for good -/

/-- In any run nothing is staged in a closed handle. Once a handle is closed, on its own or with its
store, and whether or not that succeeded, it refuses reads and writes under its path, and closing it
once more does nothing, whatever follows. Closing a handle with nothing staged succeeds and changes
no file, the first time as well. So uses without a successful write change no file if nothing was
staged before in the handles that they close. -/
theorem final_of_closes {files : FileSystem}
    (hruns : Runs .empty (.ofFiles files) events store world) :
    (∀ id, (world.handle id).source = none → (world.handle id).staged = ∅)
      ∧ (∀ (use : Use) (id : HandleId), use.closesHandle id = true →
        (∀ i, use.handle? = some i → i < world.handles.size) → id < world.handles.size →
        ∀ more store' world',
          Runs (use.apply store world).1 (use.apply store world).2 more store' world' →
          Final store' world' id (world.handle id).path)
      ∧ (∀ id, (world.handle id).staged.isEmpty = true → Idle store world id)
      ∧ ∀ uses, written store world uses = [] →
        (∀ use ∈ uses, ∀ id, use.closesHandle id = true →
          (world.handle id).staged.isEmpty = true) →
        (run store world uses).2.files = world.files := by
  have hregistered := hruns.registered (registered_ofFiles files)
  refine ⟨hruns.tracks.unstaged, fun use id hcloses hgiven hid more store' world' hmore => ?_,
    fun id hempty => hregistered.distinct.idle (Handle.pending?_of_isEmpty hempty),
    fun uses hwritten hstaged => files_run_of_written_eq_nil hwritten hstaged⟩
  have hdoes := use.does store world
  have hbound := Nat.lt_of_lt_of_le hid hdoes.held_cases.1
  obtain ⟨hclosed, hpath⟩ := hmore.closed_of_closed hbound (hregistered.source_apply hcloses)
  have hall := (hruns.use use hgiven).trans hmore
  have hfinal := (hall.registered (registered_ofFiles files)).distinct.final
    hall.tracks.unstaged hclosed
  rw [hpath, (hdoes.path_eq hid).1] at hfinal
  exact hfinal

/-- The second of two archives is gone when its handle is closed for the first time. That fails, and
the handle is closed for good. -/
theorem final_of_closes_goneFiles :
    ((pairState.2.withFiles goneFiles).closeHandle 1).2 = .error (.io "/b.jar" (.os .notFound))
      ∧ Final pairState.1 ((pairState.2.withFiles goneFiles).closeHandle 1).1 1 "/b.jar" := by
  obtain ⟨-, -, -, hpath, hfails⟩ := pairState_eq
  obtain ⟨events, hruns⟩ := exists_runs_goneFiles
  have hbound : 1 < pairState.2.handles.size := by decide +kernel
  have hgiven : ∀ i, (Use.closeHandle 1).handle? = some i → i < pairState.2.handles.size := by
    intro i hi
    cases hi
    exact hbound
  -- from here on the state is any in which this handle has this path
  generalize pairState = state at *
  have hkept : ((state.2.withFiles goneFiles).handle 1).path = "/b.jar" := hpath
  have hfinal := (final_of_closes hruns).2.1 (.closeHandle 1) 1 rfl hgiven hbound [] _ _ .start
  rw [hkept] at hfinal
  exact ⟨hfails, hfinal⟩

end Reline.Archive
