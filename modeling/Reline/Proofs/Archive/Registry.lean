/-
  Reline.Proofs.Archive.Registry

  What a store has registered, in runs of any uses while files change from
  outside.

  A place has one cell, and a handle stands in one cell at most. As long as the
  store is not closed, a cell keeps the handle that it once got. A handle that no
  cell holds is closed: it was given up with its store.
-/

import Reline.Proofs.Archive.Closing
import Reline.Proofs.Archive.Store

namespace Reline.Archive

open FileSystem

/-! ## Events -/

/-- What happens to a store and to the world around it. -/
inductive Event where
  /-- The store or one of its handles is used. -/
  | use (use : Use)
  /-- The files become others. -/
  | change (files : FileSystem)

/-- A change of the files from outside. A file that is gone leaves its number to no other. -/
structure Outside (fs fs' : FileSystem) : Prop where
  wellFormed : WellFormed fs'
  size : fs.files.size ≤ fs'.files.size

/-- The handle that a use names. -/
def Use.handle? : Use → Option HandleId
  | readHandle id _ | writeHandle id _ _ | closeHandle id => some id
  | _ => none

/-- Whether a use makes the store forget its handles. -/
def Use.forgets : Use → Bool
  | closeAll | drop => true
  | _ => false

/-- Whether the store forgets its handles. -/
def Event.forgets : Event → Bool
  | .use u => u.forgets
  | .change _ => false

/-- What events in turn lead to. Uses name handles that were given out. -/
inductive Runs (store₀ : Store) (world₀ : World) : List Event → Store → World → Prop where
  | start : Runs store₀ world₀ [] store₀ world₀
  | use {events : List Event} {store : Store} {world : World}
    (before : Runs store₀ world₀ events store world) (use : Use)
    (given : ∀ id, use.handle? = some id → id < world.handles.size) :
    Runs store₀ world₀ (events ++ [.use use]) (use.apply store world).1 (use.apply store world).2
  | change {events : List Event} {store : Store} {world : World}
    (before : Runs store₀ world₀ events store world) {files : FileSystem}
    (outside : Outside world.files files) :
    Runs store₀ world₀ (events ++ [.change files]) store (world.withFiles files)

variable {store store' : Store} {world world' : World} {key key' path : String} {id : HandleId}
  {events : List Event}

/-- Whatever happens, worlds stay sound. -/
theorem Runs.sound {store₀ : Store} {world₀ : World} (h : Runs store₀ world₀ events store world)
    (hsound : Sound world₀) : Sound world := by
  induction h with
  | start => exact hsound
  | use before use given ih => exact (changes_apply ih _ use).sound
  | change before outside ih => exact ⟨outside.wellFormed, ih.paths⟩

/-- Uses of the store alone are events that can follow any others. -/
theorem Runs.append_uses {store₀ : Store} {world₀ : World}
    (h : Runs store₀ world₀ events store world) (uses : List Use)
    (hstore : ∀ use ∈ uses, use.handle? = none) :
    Runs store₀ world₀ (events ++ uses.map .use) (run store world uses).1
      (run store world uses).2 := by
  induction uses generalizing events store world with
  | nil =>
    rw [List.map_nil, List.append_nil]
    exact h
  | cons use uses ih =>
    obtain ⟨hnone, hrest⟩ := List.forall_mem_cons.1 hstore
    have hnext := ih (h.use use fun id hid => by rw [hnone] at hid; contradiction) hrest
    rw [List.append_assoc] at hnext
    exact hnext

/-! ## Asking for a handle -/

/-- The handle that a store has for the place of a key. -/
def Store.held? (store : Store) (key : String) : Option HandleId :=
  (store.find? key).bind Cell.handle

theorem Store.held?_congr (store : Store) (h : Store.sameKey key key' = true) :
    store.held? key = store.held? key' := by
  rw [held?, held?, store.find?_congr h]

theorem Store.held?_register (store : Store) (key key' : String) (handle : Option HandleId) :
    (store.register key handle).held? key'
      = if Store.sameKey key key' then handle else store.held? key' :=
  store.bind_find?_register key key' handle

theorem Store.mem_cells_of_held (h : store.held? key = some id) :
    ∃ cell ∈ store.cells, cell.handle = some id ∧ Store.sameKey cell.key key = true := by
  obtain ⟨cell, hfind, hcell⟩ := Option.bind_eq_some_iff.1 h
  exact ⟨cell, List.mem_of_find?_eq_some hfind, hcell, Store.sameKey_of_find? hfind⟩

/-- The ways in which asking for a handle ends. -/
inductive Store.Asks (store : Store) (world : World) (path : String) :
    Store → World → Except Error HandleId → Prop where
  /-- The path is none. -/
  | invalid {e : Error} (keyed : Store.key world.files path = .error e) :
    Asks store world path store world (.error e)
  /-- The store has a handle. -/
  | held {key : String} {id : HandleId} (keyed : Store.key world.files path = .ok key)
    (held : store.held? key = some id) : Asks store world path store world (.ok id)
  /-- The archive cannot be opened. -/
  | refused {key : String} {e : Error} (keyed : Store.key world.files path = .ok key)
    (vacant : store.held? key = none) (refusal : Handle.openAt world.files key = .error e) :
    Asks store world path (store.register key none) world (.error e)
  /-- The archive is opened. -/
  | opened {key : String} {handle : Handle} {log : List Log.Message}
    (keyed : Store.key world.files path = .ok key) (vacant : store.held? key = none)
    (opening : Handle.openAt world.files key = .ok handle) :
    Asks store world path (store.register key (some world.handles.size))
      ⟨world.files, world.handles.push handle, log⟩ (.ok world.handles.size)

theorem Store.asks_of_handle {result : Except Error HandleId}
    (h : store.handle world path = (store', world', result)) :
    store.Asks world path store' world' result := by
  rw [Store.handle] at h
  cases hkey : Store.key world.files path with
  | error e =>
    rw [hkey] at h
    cases h
    exact .invalid hkey
  | ok key =>
    rw [hkey] at h
    dsimp only at h
    split at h
    case h_1 id hheld =>
      cases h
      exact .held hkey hheld
    case h_2 hvacant =>
      rw [World.openArchive] at h
      cases hopen : Handle.openAt world.files key with
      | error e =>
        rw [hopen] at h
        cases h
        exact .refused hkey hvacant hopen
      | ok handle =>
        rw [hopen] at h
        cases h
        exact .opened hkey hvacant hopen

theorem Store.asks (store : Store) (world : World) (path : String) :
    store.Asks world path (store.handle world path).1 (store.handle world path).2.1
      (store.handle world path).2.2 :=
  asks_of_handle rfl

/-- A call on a place that has a handle gives it. -/
theorem Store.handle_of_held (hkey : Store.key world.files path = .ok key)
    (hheld : store.held? key = some id) : (store.handle world path).2.2 = .ok id := by
  rw [handle, hkey]
  dsimp only
  rw [held?] at hheld
  rw [hheld]

/-- An archive that can be opened is never refused. -/
theorem Store.exists_handle_eq_ok (store : Store) (hkey : Store.key world.files path = .ok key)
    {handle : Handle} (hopen : Handle.openAt world.files key = .ok handle) :
    ∃ id, (store.handle world path).2.2 = .ok id := by
  have hasks := store.asks world path
  generalize (store.handle world path).2.2 = result at hasks ⊢
  generalize (store.handle world path).1 = store' at hasks
  generalize (store.handle world path).2.1 = world' at hasks
  cases hasks with
  | invalid keyed => cases hkey.symm.trans keyed
  | held keyed held => exact ⟨_, rfl⟩
  | refused keyed vacant refusal =>
    cases hkey.symm.trans keyed
    cases hopen.symm.trans refusal
  | opened keyed vacant opening => exact ⟨_, rfl⟩

/-- Asking for a handle changes no file. -/
theorem Store.Asks.files_eq {result : Except Error HandleId}
    (h : store.Asks world path store' world' result) : world'.files = world.files := by
  cases h <;> rfl

/-- A place that has a handle keeps it. -/
theorem Store.Asks.held_of_held {result : Except Error HandleId}
    (h : store.Asks world path store' world' result) (hheld : store.held? key = some id) :
    store'.held? key = some id := by
  have hregister {key' : String} (handle : Option HandleId) (hvacant : store.held? key' = none) :
      (store.register key' handle).held? key = some id := by
    have hother : ¬ sameKey key' key = true := by
      intro hsame
      rw [store.held?_congr hsame, hheld] at hvacant
      contradiction
    rw [store.held?_register, if_neg hother]
    exact hheld
  cases h with
  | invalid keyed => exact hheld
  | held keyed held => exact hheld
  | refused keyed vacant refusal => exact hregister none vacant
  | opened keyed vacant opening => exact hregister _ vacant

/-- A store that gives a handle holds it. -/
theorem Store.Asks.held_of_ok (h : store.Asks world path store' world' (.ok id)) :
    ∃ key, Store.key world.files path = .ok key ∧ store'.held? key = some id := by
  cases h with
  | held keyed held => exact ⟨_, keyed, held⟩
  | opened keyed vacant opening =>
    refine ⟨_, keyed, ?_⟩
    rw [store.held?_register, if_pos (sameKey_iff.2 rfl)]

/-! ## Handles that are written or closed -/

/-- Whether nothing is staged in handles that are closed. -/
def Unstaged (world : World) : Prop :=
  ∀ id, (world.handle id).source = none → (world.handle id).staged = ∅

theorem unstaged_ofFiles (files : FileSystem) : Unstaged (.ofFiles files) := fun _ _ => rfl

/-- Handles that were at most written or closed: their paths stay, and what they read from. -/
structure Remains (world world' : World) : Prop where
  size : world'.handles.size = world.handles.size
  path : ∀ id, (world'.handle id).path = (world.handle id).path
  source : ∀ id, (world'.handle id).source = none
    ∨ (world'.handle id).source = (world.handle id).source
  unstaged : Unstaged world → Unstaged world'

theorem Remains.refl (world : World) : Remains world world :=
  ⟨rfl, fun _ => rfl, fun _ => .inr rfl, id⟩

theorem Remains.trans {world'' : World} (h : Remains world world') (h' : Remains world' world'') :
    Remains world world'' where
  size := h'.size.trans h.size
  path id := (h'.path id).trans (h.path id)
  source id := by
    rcases h'.source id with hclosed | hsame
    · exact .inl hclosed
    · rw [hsame]
      exact h.source id
  unstaged hworld := h'.unstaged (h.unstaged hworld)

/-- What is closed stays so. -/
theorem Remains.closed (h : Remains world world') (hid : (world.handle id).source = none) :
    (world'.handle id).source = none := by
  rcases h.source id with hclosed | hsame
  · exact hclosed
  · exact hsame.trans hid

theorem Remains.of_handles_eq (h : world'.handles = world.handles) : Remains world world' := by
  have hhandle (id : HandleId) : world'.handle id = world.handle id := by
    rw [World.handle, World.handle, h]
  refine ⟨by rw [h], fun id => by rw [hhandle], fun id => .inr (by rw [hhandle]), ?_⟩
  intro hworld id hid
  rw [hhandle] at hid ⊢
  exact hworld id hid

theorem World.handle_of_size_le (h : world.handles.size ≤ id) :
    world.handle id = World.noHandle := by
  rw [World.handle, Array.getD_eq_getD_getElem?, Array.getElem?_eq_none h, Option.getD_none]

theorem handle_setIfInBounds (world : World) (files : FileSystem) (log : List Log.Message)
    (i : HandleId) {handle : Handle}
    (hclosed : world.handles.size ≤ id → handle = world.handle id) :
    (⟨files, world.handles.setIfInBounds id handle, log⟩ : World).handle i
      = if i = id then handle else world.handle i := by
  rw [World.handle, Array.getD_eq_getD_getElem?, Array.getElem?_setIfInBounds]
  by_cases hi : i = id
  · subst hi
    rw [if_pos rfl, if_pos rfl]
    split
    case isTrue => rfl
    case isFalse hbound =>
      -- a handle that was never opened stays so
      rw [hclosed (Nat.not_lt.1 hbound), World.handle, Array.getD_eq_getD_getElem?,
        Array.getElem?_eq_none (Nat.not_lt.1 hbound)]
  · rw [if_neg (Ne.symm hi), if_neg hi, World.handle, Array.getD_eq_getD_getElem?]

/-- Handles of which none was opened or closed. -/
structure Stays (world world' : World) : Prop where
  size : world'.handles.size = world.handles.size
  path : ∀ id, (world'.handle id).path = (world.handle id).path
  source : ∀ id, (world'.handle id).source = (world.handle id).source
  unstaged : Unstaged world → Unstaged world'

theorem Stays.refl (world : World) : Stays world world := ⟨rfl, fun _ => rfl, fun _ => rfl, id⟩

theorem Stays.remains (h : Stays world world') : Remains world world' :=
  ⟨h.size, h.path, fun id => .inr (h.source id), h.unstaged⟩

theorem files_writeEntry (world : World) (id : HandleId) (entry : String) (bytes : Bytes) :
    (world.writeEntry id entry bytes).1.files = world.files := by
  rw [World.writeEntry]
  split <;> rfl

theorem stays_writeEntry (world : World) (id : HandleId) (entry : String) (bytes : Bytes) :
    Stays world (world.writeEntry id entry bytes).1 := by
  rw [World.writeEntry, Handle.write]
  cases hsource : (world.handle id).source with
  | none => exact .refl world
  | some source =>
    have hbound : ¬ world.handles.size ≤ id := by
      intro hbound
      rw [World.handle_of_size_le hbound] at hsource
      contradiction
    have hhandle (i : HandleId) {handle : Handle} :=
      @handle_setIfInBounds id world world.files world.log i handle
    dsimp only
    refine ⟨Array.size_setIfInBounds, fun i => ?_, fun i => ?_, fun hworld i hi => ?_⟩
    · rw [hhandle i (absurd · hbound)]
      split
      case isTrue heq => rw [heq]
      case isFalse => rfl
    · rw [hhandle i (absurd · hbound)]
      split
      case isTrue heq => rw [heq, hsource]
      case isFalse => rfl
    · -- what was written is not closed
      rw [hhandle i (absurd · hbound)] at hi ⊢
      split at hi
      case isTrue => cases hi
      case isFalse hne =>
        rw [if_neg hne]
        exact hworld i hi

theorem Handle.source_close (handle : Handle) (fs : FileSystem) :
    (handle.close fs).1.source = none ∧ (handle.close fs).1.path = handle.path
      ∧ ((handle.source = none → handle.staged = ∅) → (handle.close fs).1.staged = ∅) := by
  rw [Handle.close]
  cases hsource : handle.source with
  | none => exact ⟨hsource, rfl, fun h => h rfl⟩
  | some source =>
    dsimp only
    split <;> exact ⟨rfl, rfl, fun _ => rfl⟩

theorem remains_closeHandle (world : World) (id : HandleId) :
    Remains world (world.closeHandle id).1 where
  size := Array.size_setIfInBounds
  path i := by
    rw [Store.handle_closeHandle]
    split
    case isTrue heq => rw [(Handle.source_close _ _).2.1, heq]
    case isFalse => rfl
  source i := by
    rw [Store.handle_closeHandle]
    split
    case isTrue => exact .inl (Handle.source_close _ _).1
    case isFalse => exact .inr rfl
  unstaged hworld i hi := by
    rw [Store.handle_closeHandle] at hi ⊢
    split
    case isTrue => exact (Handle.source_close _ _).2.2 (hworld id)
    case isFalse hne =>
      rw [if_neg hne] at hi
      exact hworld i hi

theorem source_closeHandle (world : World) (id i : HandleId) :
    ((world.closeHandle id).1.handle i).source = none
      ↔ i = id ∨ (world.handle i).source = none := by
  rw [Store.handle_closeHandle]
  split
  case isTrue heq => simp [heq, (Handle.source_close _ _).1]
  case isFalse hne => simp [hne]

/-- Closing handles in turn leaves all of them closed. -/
theorem remains_closeCells (world : World) (cells : List Cell) :
    Remains world (Store.closeCells world cells).1
      ∧ ∀ cell ∈ cells, ∀ id, cell.handle = some id →
        ((Store.closeCells world cells).1.handle id).source = none := by
  induction cells generalizing world with
  | nil => exact ⟨.refl world, fun _ hcell => absurd hcell List.not_mem_nil⟩
  | cons cell rest ih =>
    obtain ⟨text, handle⟩ := cell
    cases handle with
    | none =>
      obtain ⟨hremains, hclosed⟩ := ih world
      refine ⟨hremains, fun cell hcell i hi => ?_⟩
      rcases List.mem_cons.1 hcell with rfl | hcell
      · contradiction
      · exact hclosed cell hcell i hi
    | some id =>
      obtain ⟨next, hhandles, -, hnext⟩ := Store.exists_closeCells_cons world text id rest
      have hfirst : Remains world next :=
        (remains_closeHandle world id).trans (.of_handles_eq hhandles)
      have hhead : (next.handle id).source = none := by
        have hclosed := (source_closeHandle world id id).2 (.inl rfl)
        rwa [World.handle, ← hhandles] at hclosed
      obtain ⟨hremains, hclosed⟩ := ih next
      rw [hnext]
      refine ⟨hfirst.trans hremains, fun cell hcell i hi => ?_⟩
      rcases List.mem_cons.1 hcell with rfl | hcell
      · cases hi
        exact hremains.closed hhead
      · exact hclosed cell hcell i hi

/-! ## What is registered -/

/-- Whether the cells of a store are of different places, each handle is that of its cell's place,
and all other handles are closed. -/
structure Registered (store : Store) (world : World) : Prop where
  apart : store.cells.Pairwise fun a b => ¬ Store.sameKey a.key b.key = true
  known : ∀ cell ∈ store.cells, ∀ id, cell.handle = some id →
    id < world.handles.size ∧ Store.sameKey (world.handle id).path cell.key = true
  closed : ∀ id, (∀ cell ∈ store.cells, cell.handle ≠ some id) → (world.handle id).source = none

theorem Registered.of_remains (h : Registered store world) (hremains : Remains world world') :
    Registered store world' where
  apart := h.apart
  known cell hcell id hid := by
    rw [hremains.size, hremains.path]
    exact h.known cell hcell id hid
  closed id hid := hremains.closed (h.closed id hid)

/-- A store that has forgotten its handles, which are closed. -/
theorem registered_empty (h : ∀ id, (world.handle id).source = none) :
    Registered .empty world :=
  ⟨.nil, fun _ hcell => absurd hcell List.not_mem_nil, fun id _ => h id⟩

theorem registered_ofFiles (files : FileSystem) : Registered .empty (.ofFiles files) :=
  registered_empty fun _ => rfl

/-- The cell that is found for a place is the one that is there. -/
theorem Registered.find?_eq (h : Registered store world) {cell : Cell} (hcell : cell ∈ store.cells)
    (hsame : Store.sameKey cell.key key = true) : store.find? key = some cell := by
  have hfound : (store.find? key).isSome = true := List.find?_isSome.2 ⟨cell, hcell, hsame⟩
  obtain ⟨other, hother⟩ := Option.isSome_iff_exists.1 hfound
  have hkey := Store.sameKey_iff.1 (Store.sameKey_of_find? hother)
  have hsymm : Std.Symm fun a b : Cell => ¬ Store.sameKey a.key b.key = true :=
    ⟨fun a b hab hba => hab (Store.sameKey_iff.2 (Store.sameKey_iff.1 hba).symm)⟩
  -- cells of one place would not be apart
  have heq : other = cell := by
    by_contra hne
    have hmem := List.mem_of_find?_eq_some hother
    have hsame' := Store.sameKey_iff.2 (hkey.trans (Store.sameKey_iff.1 hsame).symm)
    exact h.apart.forall hmem hcell hne hsame'
  rw [hother, heq]

theorem Registered.held_of_mem (h : Registered store world) {cell : Cell}
    (hcell : cell ∈ store.cells) (hid : cell.handle = some id) :
    store.held? cell.key = some id := by
  rw [Store.held?, h.find?_eq hcell (Store.sameKey_iff.2 rfl)]
  exact hid

/-- What is held for a place is a handle with a path of this place. -/
theorem Registered.of_held (h : Registered store world) (hheld : store.held? key = some id) :
    id < world.handles.size ∧ Store.sameKey (world.handle id).path key = true := by
  obtain ⟨cell, hcell, hid, hsame⟩ := Store.mem_cells_of_held hheld
  obtain ⟨hbound, hpath⟩ := h.known cell hcell id hid
  exact ⟨hbound,
    Store.sameKey_iff.2 ((Store.sameKey_iff.1 hpath).trans (Store.sameKey_iff.1 hsame))⟩

/-- A handle is held for one place only. -/
theorem Registered.sameKey_of_held (h : Registered store world) (hheld : store.held? key = some id)
    (hheld' : store.held? key' = some id) : Store.sameKey key key' = true := by
  have hpath := Store.sameKey_iff.1 (h.of_held hheld).2
  have hpath' := Store.sameKey_iff.1 (h.of_held hheld').2
  exact Store.sameKey_iff.2 (hpath.symm.trans hpath')

/-! ## Registering -/

/-- Cells of other places stay. -/
theorem Store.mem_register_of_mem {cell : Cell} (hcell : cell ∈ store.cells)
    (hother : ¬ sameKey cell.key key = true) (handle : Option HandleId) :
    cell ∈ (store.register key handle).cells := by
  rw [register]
  split
  · exact List.mem_map.2 ⟨cell, hcell, if_neg hother⟩
  · exact List.mem_append_left _ hcell

/-- Cells stay apart, since a place that has one gets no other. -/
theorem Store.pairwise_register
    (h : store.cells.Pairwise fun a b => ¬ sameKey a.key b.key = true)
    (key : String) (handle : Option HandleId) :
    (store.register key handle).cells.Pairwise fun a b => ¬ sameKey a.key b.key = true := by
  rw [register]
  cases hfind : store.find? key with
  | some cell =>
    have hkeys (cell : Cell) :
        (if sameKey cell.key key then { cell with handle } else cell).key = cell.key := by
      split <;> rfl
    dsimp only
    rw [List.pairwise_map]
    refine h.imp fun {a b} hab => ?_
    rw [hkeys, hkeys]
    exact hab
  | none =>
    have hnew : ∀ cell ∈ store.cells, ¬ sameKey cell.key key = true :=
      List.find?_eq_none.1 hfind
    dsimp only
    rw [List.pairwise_append]
    refine ⟨h, List.pairwise_singleton .., fun cell hcell new hmem => ?_⟩
    rw [List.mem_singleton.1 hmem]
    exact hnew cell hcell

/-- Where no handle was held, one may be registered that was just opened, or none. -/
theorem Registered.register (h : Registered store world) (hvacant : store.held? key = none)
    {handle : Option HandleId} (hremains : ∀ id < world.handles.size,
      world'.handle id = world.handle id)
    (hsize : world.handles.size ≤ world'.handles.size)
    (hnew : ∀ id, handle = some id →
      id < world'.handles.size ∧ Store.sameKey (world'.handle id).path key = true)
    (hall : ∀ id, world.handles.size ≤ id → handle ≠ some id → (world'.handle id).source = none) :
    Registered (store.register key handle) world' where
  apart := Store.pairwise_register h.apart key handle
  known := by
    intro cell hcell id hid
    rcases Store.mem_register_cases hcell with ⟨hhandle, hsame⟩ | hold
    · obtain ⟨hbound, hpath⟩ := hnew id (hhandle.symm.trans hid)
      exact ⟨hbound, Store.sameKey_iff.2
        ((Store.sameKey_iff.1 hpath).trans (Store.sameKey_iff.1 hsame).symm)⟩
    · obtain ⟨hbound, hpath⟩ := h.known cell hold id hid
      rw [hremains id hbound]
      exact ⟨Nat.lt_of_lt_of_le hbound hsize, hpath⟩
  closed := by
    intro id hid
    have hother : handle ≠ some id := by
      rintro rfl
      have hheld : (store.register key (some id)).held? key = some id := by
        rw [store.held?_register, if_pos (Store.sameKey_iff.2 rfl)]
      obtain ⟨cell, hcell, hcellId, -⟩ := Store.mem_cells_of_held hheld
      exact hid cell hcell hcellId
    by_cases hbound : id < world.handles.size
    · rw [hremains id hbound]
      refine h.closed id fun cell hcell hcellId => ?_
      -- a cell with a handle is of another place, and so is still there
      refine hid cell (Store.mem_register_of_mem hcell ?_ handle) hcellId
      intro hsame
      rw [← store.held?_congr hsame, h.held_of_mem hcell hcellId] at hvacant
      contradiction
    · exact hall id (Nat.not_lt.1 hbound) hother

theorem World.handle_push (world : World) (files : FileSystem) (log : List Log.Message)
    (handle : Handle) (id : HandleId) :
    (⟨files, world.handles.push handle, log⟩ : World).handle id
      = if id = world.handles.size then handle else world.handle id := by
  rw [World.handle, World.handle, Array.getD_eq_getD_getElem?, Array.getD_eq_getD_getElem?,
    Array.getElem?_push]
  split <;> rfl

theorem Registered.of_asks (h : Registered store world) {result : Except Error HandleId}
    (hasks : store.Asks world path store' world' result) : Registered store' world' := by
  cases hasks with
  | invalid keyed => exact h
  | held keyed held => exact h
  | refused keyed vacant refusal =>
    refine h.register vacant (fun _ _ => rfl) (Nat.le_refl _) nofun fun id hid _ => ?_
    rw [World.handle_of_size_le hid]
    rfl
  | @opened key handle log keyed vacant opening =>
    obtain ⟨file, directory, -, -, -, hhandle⟩ := Handle.openAt_eq_ok_iff.1 opening
    refine h.register vacant (fun id hid => ?_) ?_ (fun id hid => ?_) fun id hid hne => ?_
    · rw [World.handle_push, if_neg (Nat.ne_of_lt hid)]
    · simp
    · cases hid
      rw [World.handle_push, if_pos rfl, hhandle]
      exact ⟨by simp, Store.sameKey_iff.2 rfl⟩
    · rw [World.handle_push, if_neg fun heq => hne (congrArg some heq.symm),
        World.handle_of_size_le hid]
      rfl

/-! ## Uses -/

/-- What a use does to the cells of a store and to the handles. -/
inductive Use.Does (store : Store) (world : World) : Use → Store → World → Prop where
  /-- It asks for a handle, and may read or write through it. -/
  | asks {use : Use} {path : String} {store' : Store} {asked world' : World}
    {result : Except Error HandleId} (closes : use.closes = false)
    (asks : store.Asks world path store' asked result) (stays : Stays asked world') :
    Does store world use store' world'
  /-- It reads or writes through a handle, or asks for none. -/
  | passes {use : Use} {world' : World} (closes : use.closes = false) (stays : Stays world world') :
    Does store world use store world'
  /-- It closes a handle. -/
  | closes (id : HandleId) : Does store world (.closeHandle id) store (world.closeHandle id).1
  /-- It closes all handles of the store, which forgets them. -/
  | forgets {use : Use} {world' : World} (forgets : use.forgets = true)
    (remains : Remains world world')
    (closed : ∀ cell ∈ store.cells, ∀ id, cell.handle = some id →
      (world'.handle id).source = none) : Does store world use .empty world'

theorem Use.does (use : Use) (store : Store) (world : World) :
    use.Does store world (use.apply store world).1 (use.apply store world).2 := by
  have hcells := remains_closeCells world store.ordered
  have hclosed : ∀ cell ∈ store.cells, ∀ id, cell.handle = some id →
      ((store.closeAll world).2.1.handle id).source = none :=
    fun cell hcell => hcells.2 cell (List.mem_mergeSort.2 hcell)
  cases use with
  | handle path => exact .asks rfl (store.asks world path) (.refl _)
  | read path entry =>
    rw [apply_read]
    exact .asks rfl (store.asks world path) (.refl _)
  | write path entry bytes =>
    have hasks := store.asks world path
    rw [apply, Store.write]
    generalize store.handle world path = answer at hasks ⊢
    obtain ⟨store', asked, e | id⟩ := answer
    · exact .asks rfl hasks (.refl _)
    · exact .asks rfl hasks (stays_writeEntry ..)
  | openHandles => exact .passes rfl (.refl _)
  | readHandle id entry => exact .passes rfl (.refl _)
  | writeHandle id entry bytes => exact .passes rfl (stays_writeEntry ..)
  | closeHandle id => exact .closes id
  | closeAll => exact .forgets rfl hcells.1 hclosed
  | drop =>
    obtain ⟨-, hhandles⟩ := files_drop store world
    have hdropped : Remains (store.closeAll world).2.1 (store.drop world) := .of_handles_eq hhandles
    exact .forgets rfl (hcells.1.trans hdropped) fun cell hcell id hid =>
      hdropped.closed (hclosed cell hcell id hid)

theorem Registered.apply (h : Registered store world) (use : Use) :
    Registered (use.apply store world).1 (use.apply store world).2 := by
  have hdoes := use.does store world
  generalize (use.apply store world).1 = store' at hdoes ⊢
  generalize (use.apply store world).2 = world' at hdoes ⊢
  cases hdoes with
  | asks closes asks stays => exact (h.of_asks asks).of_remains stays.remains
  | passes closes stays => exact h.of_remains stays.remains
  | closes id => exact h.of_remains (remains_closeHandle ..)
  | forgets forgets remains closed =>
    refine registered_empty fun id => ?_
    by_cases hheld : ∀ cell ∈ store.cells, cell.handle ≠ some id
    · exact remains.closed (h.closed id hheld)
    · push Not at hheld
      obtain ⟨cell, hcell, hid⟩ := hheld
      exact closed cell hcell id hid

/-! ## Runs -/

theorem Runs.registered {store₀ : Store} {world₀ : World}
    (h : Runs store₀ world₀ events store world) (hstart : Registered store₀ world₀) :
    Registered store world := by
  induction h with
  | start => exact hstart
  | use before use given ih => exact ih.apply use
  | change before outside ih => exact ih.of_remains (.of_handles_eq rfl)

/-- Handles are never fewer. A handle that is held was held before, or is new. -/
theorem Use.Does.held_cases {use : Use} (h : use.Does store world store' world') :
    world.handles.size ≤ world'.handles.size
      ∧ ∀ cell ∈ store'.cells, ∀ id, cell.handle = some id →
        (∃ cell ∈ store.cells, cell.handle = some id) ∨ world.handles.size ≤ id := by
  cases h with
  | asks closes asks stays =>
    rw [stays.size]
    have hregister {key : String} (handle : Option HandleId)
        (hnew : ∀ id, handle = some id → world.handles.size ≤ id) :
        ∀ cell ∈ (store.register key handle).cells, ∀ id, cell.handle = some id →
          (∃ cell ∈ store.cells, cell.handle = some id) ∨ world.handles.size ≤ id := by
      intro cell hcell id hid
      rcases Store.mem_register_cases hcell with ⟨hhandle, -⟩ | hold
      · exact .inr (hnew id (hhandle.symm.trans hid))
      · exact .inl ⟨cell, hold, hid⟩
    cases asks with
    | invalid keyed => exact ⟨Nat.le_refl _, fun cell hcell id hid => .inl ⟨cell, hcell, hid⟩⟩
    | held keyed held => exact ⟨Nat.le_refl _, fun cell hcell id hid => .inl ⟨cell, hcell, hid⟩⟩
    | refused keyed vacant refusal => exact ⟨Nat.le_refl _, hregister none nofun⟩
    | opened keyed vacant opening =>
      exact ⟨by simp, hregister _ fun id hid => Nat.le_of_eq (Option.some.inj hid)⟩
  | passes closes stays =>
    exact ⟨Nat.le_of_eq stays.size.symm, fun cell hcell id hid => .inl ⟨cell, hcell, hid⟩⟩
  | closes id' =>
    exact ⟨Nat.le_of_eq (remains_closeHandle ..).size.symm,
      fun cell hcell id hid => .inl ⟨cell, hcell, hid⟩⟩
  | forgets forgets remains closed =>
    exact ⟨Nat.le_of_eq remains.size.symm, fun cell hcell => absurd hcell List.not_mem_nil⟩

theorem Runs.size_le {store₀ : Store} {world₀ : World}
    (h : Runs store₀ world₀ events store world) :
    world₀.handles.size ≤ world.handles.size := by
  induction h with
  | start => exact Nat.le_refl _
  | @use events store world before use given ih =>
    exact Nat.le_trans ih (use.does store world).held_cases.1
  | change before outside ih => exact ih

/-- A handle that was forgotten is never held again. -/
theorem Runs.not_held {store₀ : Store} {world₀ : World}
    (h : Runs store₀ world₀ events store world) (hforgets : ∃ event ∈ events, event.forgets = true)
    (hid : id < world₀.handles.size) : ∀ cell ∈ store.cells, cell.handle ≠ some id := by
  induction h with
  | start =>
    obtain ⟨event, hevent, -⟩ := hforgets
    contradiction
  | @use events store world before use given ih =>
    have hdoes := use.does store world
    intro cell hcell hcellId
    by_cases huse : use.forgets = true
    · -- the store is empty then
      generalize (use.apply store world).1 = store' at hdoes hcell
      generalize (use.apply store world).2 = world' at hdoes
      cases hdoes with
      | asks closes asks stays => cases use <;> contradiction
      | passes closes stays => cases use <;> contradiction
      | closes id' => contradiction
      | forgets forgets remains closed => exact List.not_mem_nil hcell
    · have hearlier : ∃ event ∈ events, event.forgets = true := by
        obtain ⟨event, hevent, hforgets⟩ := hforgets
        rcases List.mem_append.1 hevent with hevent | hlast
        · exact ⟨event, hevent, hforgets⟩
        · rw [List.mem_singleton.1 hlast] at hforgets
          exact absurd hforgets huse
      rcases hdoes.held_cases.2 cell hcell id hcellId with ⟨old, hold, holdId⟩ | hnew
      · exact ih hearlier old hold holdId
      · exact absurd (Nat.lt_of_lt_of_le hid before.size_le) (Nat.not_lt.2 hnew)
  | change before outside ih =>
    obtain ⟨event, hevent, hforget⟩ := hforgets
    rcases List.mem_append.1 hevent with hevent | hlast
    · exact ih ⟨event, hevent, hforget⟩
    · rw [List.mem_singleton.1 hlast] at hforget
      contradiction

/-- Until the store forgets its handles, it holds for each place the handle that it held. -/
theorem Runs.held_of_held {store₀ : Store} {world₀ : World}
    (h : Runs store₀ world₀ events store world)
    (hforgets : ∀ event ∈ events, event.forgets = false) (hheld : store₀.held? key = some id) :
    store.held? key = some id := by
  induction h with
  | start => exact hheld
  | @use events store world before use given ih =>
    obtain ⟨hbefore, hlast⟩ := List.forall_mem_append.1 hforgets
    have huse : use.forgets = false := hlast _ (List.mem_singleton_self _)
    have hdoes := use.does store world
    generalize (use.apply store world).1 = store' at hdoes ⊢
    generalize (use.apply store world).2 = world' at hdoes
    cases hdoes with
    | asks closes asks stays => exact asks.held_of_held (ih hbefore)
    | passes closes stays => exact ih hbefore
    | closes id' => exact ih hbefore
    | forgets forgets remains closed =>
      rw [huse] at forgets
      contradiction
  | change before outside ih => exact ih (List.forall_mem_append.1 hforgets).1

end Reline.Archive
