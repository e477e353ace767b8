/-
  Reline.Proofs.Archive.Liveness

  Which handles of a store can be used.

  A handle can be closed by whoever got it from the store. The store does not
  learn of it: it counts the handle as before and gives it to whoever asks for its
  archive, who can neither read nor write then. So a store counts exactly the
  handles that can be used, and serves its archives, as long as none of the handles
  that it has is closed on its own. That is to be said about any run.

  Main statement: `openHandles_eq_liveHandles_iff`.
-/

import Reline.Proofs.Archive.Durability
import Reline.Proofs.Archive.Registry

namespace Reline.Archive

open FileSystem

variable {store store' : Store} {world world' : World} {key path : String} {id : HandleId}
  {events : List Event}

/-! ## Counting -/

/-- The number of handles of a store that are not closed. -/
def Store.liveHandles (store : Store) (world : World) : Nat :=
  store.cells.countP fun cell => cell.handle.any fun id => (world.handle id).source.isSome

/-- What is counted by two predicates, of which one implies the other, is as many only if it is the
same. -/
theorem countP_eq_countP_iff {α : Type} {p q : α → Bool} {l : List α}
    (himp : ∀ a ∈ l, q a = true → p a = true) :
    l.countP p = l.countP q ↔ ∀ a ∈ l, p a = true → q a = true := by
  induction l with
  | nil => simp
  | cons a l ih =>
    obtain ⟨ha, hl⟩ := List.forall_mem_cons.1 himp
    have hle : l.countP q ≤ l.countP p := List.countP_mono_left hl
    rw [List.forall_mem_cons, ← ih hl, List.countP_cons, List.countP_cons]
    by_cases hp : p a = true
    · by_cases hq : q a = true
      · simp [hp, hq]
      · -- one more is counted on the left, where there were no fewer before
        rw [if_pos hp, if_neg hq]
        have hne : ¬ l.countP p + 1 = l.countP q + 0 := by omega
        exact ⟨fun heq => absurd heq hne, fun hall => absurd (hall.1 hp) hq⟩
    · have hq : ¬ q a = true := fun hq => hp (ha hq)
      simp [hp, hq]

theorem Store.openHandles_eq_iff :
    store.openHandles = store.liveHandles world
      ↔ ∀ cell ∈ store.cells, ∀ id, cell.handle = some id → (world.handle id).source ≠ none := by
  rw [openHandles, liveHandles, countP_eq_countP_iff]
  · refine forall₂_congr fun cell _ => ?_
    cases cell.handle with
    | none => simp
    | some id => simp [Option.isSome_iff_ne_none]
  · intro cell _ hlive
    cases hhandle : cell.handle with
    | none =>
      rw [hhandle] at hlive
      contradiction
    | some id => rfl

/-! ## Handles that were closed on their own -/

/-- What events say about the handles of a store. -/
structure Tracks (events : List Event) (store : Store) (world : World) : Prop where
  bounded : ∀ id, .use (.closeHandle id) ∈ events → id < world.handles.size
  unstaged : Unstaged world
  closed_iff : ∀ cell ∈ store.cells, ∀ id, cell.handle = some id →
    ((world.handle id).source = none ↔ .use (.closeHandle id) ∈ events)

/-- Nothing was closed when a use that closes nothing follows. -/
theorem mem_append_of_closes {use : Use} (hcloses : use.closes = false) :
    .use (.closeHandle id) ∈ events ++ [.use use] ↔ .use (.closeHandle id) ∈ events := by
  rw [List.mem_append, or_iff_left]
  intro hmem
  cases List.mem_singleton.1 hmem
  contradiction

theorem Tracks.of_stays (h : Tracks events store world) (hstays : Stays world world') :
    Tracks events store world' where
  bounded id hid := by
    rw [hstays.size]
    exact h.bounded id hid
  unstaged := hstays.unstaged h.unstaged
  closed_iff cell hcell id hid := by
    rw [hstays.source]
    exact h.closed_iff cell hcell id hid

/-- A handle that is given now was closed exactly if it was closed on its own. -/
theorem Tracks.of_asks (h : Tracks events store world) (hregistered : Registered store world)
    {result : Except Error HandleId} (hasks : store.Asks world path store' world' result) :
    Tracks events store' world' := by
  cases hasks with
  | invalid keyed => exact h
  | held keyed held => exact h
  | refused keyed vacant refusal =>
    refine ⟨h.bounded, h.unstaged, fun cell hcell id hid => ?_⟩
    rcases Store.mem_register_cases hcell with ⟨hnone, -⟩ | hold
    · rw [hid] at hnone
      contradiction
    · exact h.closed_iff cell hold id hid
  | opened keyed vacant opening =>
    obtain ⟨file, directory, -, -, -, rfl⟩ := Handle.openAt_eq_ok_iff.1 opening
    refine ⟨fun id hid => ?_, fun id hid => ?_, fun cell hcell id hid => ?_⟩
    · rw [Array.size_push]
      exact Nat.lt_succ_of_lt (h.bounded id hid)
    · rw [World.handle_push] at hid ⊢
      split
      case isTrue => rfl
      case isFalse hne =>
        rw [if_neg hne] at hid
        exact h.unstaged id hid
    · rw [World.handle_push]
      rcases Store.mem_register_cases hcell with ⟨hnew, -⟩ | hold
      · -- the handle that was just opened is not closed, and no use has named it yet
        cases hnew.symm.trans hid
        rw [if_pos rfl]
        have hunnamed : .use (.closeHandle world.handles.size) ∉ events := fun hmem =>
          Nat.lt_irrefl _ (h.bounded _ hmem)
        simp [hunnamed]
      · have hbound := (hregistered.known cell hold id hid).1
        rw [if_neg (Nat.ne_of_lt hbound)]
        exact h.closed_iff cell hold id hid

theorem Tracks.apply (h : Tracks events store world) (hregistered : Registered store world)
    (use : Use) (given : ∀ id, use.handle? = some id → id < world.handles.size) :
    Tracks (events ++ [.use use]) (use.apply store world).1 (use.apply store world).2 := by
  -- events are told apart by the handles that they close
  have hcongr {events' : List Event} {store : Store} {world : World} (h : Tracks events store world)
      (hmem : ∀ id, .use (.closeHandle id) ∈ events' ↔ .use (.closeHandle id) ∈ events) :
      Tracks events' store world :=
    ⟨fun id hid => h.bounded id ((hmem id).1 hid), h.unstaged, fun cell hcell id hid =>
      (h.closed_iff cell hcell id hid).trans (hmem id).symm⟩
  have hdoes := use.does store world
  generalize (use.apply store world).1 = store' at hdoes ⊢
  generalize (use.apply store world).2 = world' at hdoes ⊢
  cases hdoes with
  | asks closes asks stays =>
    exact hcongr ((h.of_asks hregistered asks).of_stays stays) fun id => mem_append_of_closes closes
  | passes closes stays =>
    exact hcongr (h.of_stays stays) fun id => mem_append_of_closes closes
  | closes id =>
    have hremains := remains_closeHandle world id
    have hlast (i : HandleId) : .use (.closeHandle i) ∈ events ++ [.use (.closeHandle id)]
        ↔ i = id ∨ .use (.closeHandle i) ∈ events := by
      simp [or_comm]
    refine ⟨fun i hi => ?_, hremains.unstaged h.unstaged, fun cell hcell i hi => ?_⟩
    · rw [hremains.size]
      rcases (hlast i).1 hi with rfl | hi
      · exact given i rfl
      · exact h.bounded i hi
    · rw [source_closeHandle, hlast, h.closed_iff cell hcell i hi]
  | forgets forgets remains closed =>
    refine ⟨fun id hid => ?_, remains.unstaged h.unstaged, fun cell hcell => ?_⟩
    · rw [remains.size]
      rcases List.mem_append.1 hid with hid | hlast
      · exact h.bounded id hid
      · cases List.mem_singleton.1 hlast
        contradiction
    · exact absurd hcell List.not_mem_nil

/-- In any run, a handle that the store has is closed exactly if it was closed on its own. -/
theorem Runs.tracks {files : FileSystem} (h : Runs .empty (.ofFiles files) events store world) :
    Tracks events store world := by
  induction h with
  | start => exact ⟨nofun, unstaged_ofFiles files, nofun⟩
  | use before use given ih =>
    exact ih.apply (before.registered (registered_ofFiles files)) use given
  | change before outside ih =>
    have hmem (id : HandleId) (files : FileSystem) (events : List Event) :
        .use (.closeHandle id) ∈ events ++ [.change files] ↔ .use (.closeHandle id) ∈ events := by
      simp
    refine ⟨fun id hid => ih.bounded id ((hmem ..).1 hid), ih.unstaged, fun cell hcell id hid => ?_⟩
    rw [hmem]
    exact ih.closed_iff cell hcell id hid

/-! ## Using handles -/

/-- Reading fails for the reason that the archive is closed if it is, and for no other archive. -/
theorem Handle.read_closed_iff {handle : Handle}
    (hstaged : handle.source = none → handle.staged = ∅)
    (fs : FileSystem) (entry : String) :
    (∃ path, handle.read fs entry = .error (.closed path)) ↔ handle.source = none := by
  cases hsource : handle.source with
  | none =>
    rw [read, hstaged hsource, hsource]
    dsimp only
    rw [OrderedTable.get?_empty]
    exact ⟨fun _ => rfl, fun _ => ⟨_, rfl⟩⟩
  | some source =>
    simp only [reduceCtorEq, iff_false, not_exists]
    intro path hread
    rw [read_eq hsource] at hread
    split at hread
    case h_1 => contradiction
    case h_2 =>
      generalize Zip.lastContent .. = content at hread
      rcases content with - | e | bytes
      · cases hread
      · -- a fault of the archive's bytes says nothing about the handle
        cases e <;> cases hread
      · cases hread

theorem Handle.write_closed_iff (handle : Handle) (entry : String) (bytes : Bytes) :
    (∃ path, handle.write entry bytes = .error (.closed path)) ↔ handle.source = none := by
  rw [write]
  cases handle.source with
  | none => simp
  | some source => simp

theorem World.writeEntry_closed_iff (world : World) (id : HandleId) (entry : String)
    (bytes : Bytes) :
    (∃ path, (world.writeEntry id entry bytes).2 = .error (.closed path))
      ↔ (world.handle id).source = none := by
  rw [← (world.handle id).write_closed_iff entry bytes, World.writeEntry]
  cases (world.handle id).write entry bytes with
  | error e => simp
  | ok handle => simp

/-- In any run, a store counts exactly the handles that are not closed if none that it has was
closed on its own, and only then. An archive that can be opened is given a handle. That handle is
closed, and reading and writing through the store fail for this reason, exactly if it was closed on
its own. -/
theorem openHandles_eq_liveHandles_iff {files : FileSystem}
    (h : Runs .empty (.ofFiles files) events store world) :
    (store.openHandles = store.liveHandles world
        ↔ ∀ cell ∈ store.cells, ∀ id, cell.handle = some id → .use (.closeHandle id) ∉ events)
      ∧ ∀ path key handle, Store.key world.files path = .ok key →
        Handle.openAt world.files key = .ok handle →
          ∃ store' world' id, store.handle world path = (store', world', .ok id)
            ∧ ((world'.handle id).source = none ↔ .use (.closeHandle id) ∈ events)
            ∧ (∀ entry, (∃ path', (store.read world path entry).2.2 = .error (.closed path'))
              ↔ .use (.closeHandle id) ∈ events)
            ∧ ∀ entry bytes,
              (∃ path', (store.write world path entry bytes).2.2 = .error (.closed path'))
                ↔ .use (.closeHandle id) ∈ events := by
  have htracks := h.tracks
  have hregistered := h.registered (registered_ofFiles files)
  constructor
  · rw [Store.openHandles_eq_iff]
    refine forall₄_congr fun cell hcell id hid => ?_
    exact not_congr (htracks.closed_iff cell hcell id hid)
  · intro path key handle hkey hopen
    obtain ⟨id, hid⟩ := store.exists_handle_eq_ok hkey hopen
    rcases hhandle : store.handle world path with ⟨store', world', result⟩
    rw [hhandle] at hid
    cases hid
    have hasks := Store.asks_of_handle hhandle
    -- the handle that is given is in a cell, so it is closed only if a use closed it
    have htracks' := htracks.of_asks hregistered hasks
    obtain ⟨key', -, hheld⟩ := hasks.held_of_ok
    obtain ⟨cell, hcell, hcellId, -⟩ := Store.mem_cells_of_held hheld
    have hclosed := htracks'.closed_iff cell hcell id hcellId
    refine ⟨store', world', id, rfl, hclosed, fun entry => ?_, fun entry bytes => ?_⟩
    · rw [Store.read, hhandle, ← hclosed]
      exact Handle.read_closed_iff (htracks'.unstaged id) world'.files entry
    · rw [Store.write, hhandle, ← hclosed]
      exact World.writeEntry_closed_iff world' id entry bytes

/-- A store that was asked for an archive. -/
def openedState : Store × World := run .empty twiceWorld [.handle "lib.jar"]

/-- The store and the world after its handle was closed by who got it. -/
def closedState : Store × World := run openedState.1 openedState.2 [.closeHandle 0]

theorem cells_closedState : 0 < openedState.2.handles.size
    ∧ (Handle.openAt closedState.2.files "/lib.jar").toBool = true
    ∧ Store.key closedState.2.files "lib.jar" = .ok "/lib.jar"
    ∧ closedState.1.cells = [⟨"/lib.jar", some 0⟩] := by
  decide +kernel

/-- The handle is counted and given still, and reading through the store fails. -/
theorem openHandles_closedState :
    closedState.1.openHandles ≠ closedState.1.liveHandles closedState.2
      ∧ ∃ store' world', closedState.1.handle closedState.2 "lib.jar" = (store', world', .ok 0)
        ∧ (world'.handle 0).source = none
        ∧ ∃ path, (closedState.1.read closedState.2 "lib.jar" "a").2.2 = .error (.closed path) := by
  obtain ⟨hgiven, hopens, hkey, hcells⟩ := cells_closedState
  have hevents : Runs .empty (.ofFiles twiceWorld.files)
      [.use (.handle "lib.jar"), .use (.closeHandle 0)] closedState.1 closedState.2 := by
    have hopened : Runs .empty (.ofFiles twiceWorld.files) [.use (.handle "lib.jar")]
        openedState.1 openedState.2 :=
      Runs.start.append_uses [.handle "lib.jar"] (by simp [Use.handle?])
    have hclosed := hopened.use (.closeHandle 0) fun id hid => by
      cases hid
      exact hgiven
    simpa only [closedState, run, List.singleton_append] using hclosed
  have hmem : .use (.closeHandle 0) ∈ [.use (.handle "lib.jar"), Event.use (.closeHandle 0)] := by
    simp
  have hcell : ⟨"/lib.jar", some 0⟩ ∈ closedState.1.cells := by
    rw [hcells]
    exact List.mem_singleton_self _
  have hheld : closedState.1.held? "/lib.jar" = some 0 := by
    rw [Store.held?, Store.find?, hcells]
    decide +kernel
  -- from here on the state is any that the events lead to
  generalize closedState = state at *
  obtain ⟨hcount, hserved⟩ := openHandles_eq_liveHandles_iff hevents
  constructor
  · intro heq
    exact hcount.1 heq _ hcell 0 rfl hmem
  · cases hopen : Handle.openAt state.2.files "/lib.jar" with
    | error e =>
      rw [hopen] at hopens
      exact absurd hopens Bool.false_ne_true
    | ok handle =>
      obtain ⟨store', world', id, hhandle, hclosed, hread, -⟩ :=
        hserved "lib.jar" "/lib.jar" handle hkey hopen
      have hid : id = 0 := by
        have hresult := Store.handle_of_held hkey hheld
        rw [hhandle] at hresult
        exact Except.ok.inj hresult
      subst hid
      exact ⟨store', world', hhandle, hclosed.2 hmem, (hread "a").2 hmem⟩

end Reline.Archive
