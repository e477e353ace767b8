/-
  Reline.Proofs.Archive.Alone

  A store that is asked for one archive only.

  Such a store has one cell at most, and once it has opened the archive it gives
  the same handle ever after. Whether it can is settled before it is asked, by
  the places that decide what opening the archive gives; as long as others leave
  them alone it does not matter when it is asked. So it is with reading what is
  not staged, and with closing.
-/

import Reline.Proofs.Archive.Congruence
import Reline.Proofs.Archive.Listing
import Reline.Proofs.Archive.Registry

namespace Reline.Archive

open FileSystem

variable {fs : FileSystem} {path : String} {store store' : Store} {world world' : World}
  {id : HandleId} {staged : OrderedTable String Bytes}

/-! ## Before anything was asked -/

/-- What opening the archive of a path gives. -/
def opening (fs : FileSystem) (path : String) : Except Error Handle :=
  (Store.key fs path).bind (Handle.openAt fs)

theorem opening_eq_openAt {key : String} (hkey : Store.key fs path = .ok key) :
    opening fs path = Handle.openAt fs key := by
  rw [opening, hkey]
  rfl

/-- What the names of the archive of a path give, as far as they give anything. -/
def shown (fs : FileSystem) (path : String) : Contents := fun name =>
  ((opening fs path).bind fun handle => handle.read fs name).toOption.map .ok

theorem normalizeEntry_normalizeEntry (entry : String) :
    normalizeEntry (normalizeEntry entry) = normalizeEntry entry := by
  rw [normalizeEntry, normalizeEntry, String.toList_ofList, List.dropWhile_idempotent]

/-- The spelling of an entry does not matter. -/
theorem shown_normalizeEntry (fs : FileSystem) (path entry : String) :
    shown fs path (normalizeEntry entry) = shown fs path entry := by
  have hread (handle : Handle) :
      handle.read fs (normalizeEntry entry) = handle.read fs entry := by
    rw [Handle.read, Handle.read, normalizeEntry_normalizeEntry]
  rw [shown, shown]
  simp only [hread]

/-! ## The one cell -/

/-- Whether a store has a handle, and nothing else. -/
def Store.Gives (store : Store) (id : HandleId) : Prop :=
  ∃ key, store = ⟨[⟨key, some id⟩]⟩

/-- A store that was asked for the archive of a path, or not yet, and what its handle has staged. -/
inductive Holding (fs : FileSystem) (path : String) (store : Store) (world : World)
    (staged : OrderedTable String Bytes) : Prop where
  /-- It was not asked. -/
  | fresh (empty : store = .empty) (unwritten : staged = ∅)
  /-- The archive cannot be opened. -/
  | refused {key : String} {e : Error} (keyed : Store.key fs path = .ok key)
    (refusal : Handle.openAt fs key = .error e) (cells : store = ⟨[⟨key, none⟩]⟩)
    (unwritten : staged = ∅)
  /-- The archive is open. -/
  | serving {key : String} {source : Source} {id : HandleId}
    (keyed : Store.key fs path = .ok key)
    (opens : Handle.openAt fs key = .ok ⟨key, some source, ∅⟩)
    (cells : store = ⟨[⟨key, some id⟩]⟩)
    (opened : world.handles[id]? = some ⟨key, some source, staged⟩)

theorem Store.register_empty (key : String) (handle : Option HandleId) :
    Store.empty.register key handle = ⟨[⟨key, handle⟩]⟩ := rfl

theorem Store.find?_singleton (key : String) (handle : Option HandleId) :
    (⟨[⟨key, handle⟩]⟩ : Store).find? key = some ⟨key, handle⟩ := by
  rw [find?, List.find?_cons, sameKey_iff.2 rfl]

theorem Store.register_singleton (key : String) (old handle : Option HandleId) :
    (⟨[⟨key, old⟩]⟩ : Store).register key handle = ⟨[⟨key, handle⟩]⟩ := by
  rw [register, find?_singleton]
  simp only [List.map_cons, List.map_nil]
  rw [if_pos (sameKey_iff.2 rfl)]

theorem Store.held?_singleton (key : String) (handle : Option HandleId) :
    (⟨[⟨key, handle⟩]⟩ : Store).held? key = handle := by
  rw [held?, find?_singleton, Option.bind_some]

/-- Others may open handles of their own. -/
theorem Holding.mono (h : Holding fs path store world staged)
    (hhandles : ∀ (id : HandleId) (handle : Handle), world.handles[id]? = some handle →
      world'.handles[id]? = some handle) : Holding fs path store world' staged := by
  cases h with
  | fresh empty unwritten => exact .fresh empty unwritten
  | refused keyed refusal cells unwritten => exact .refused keyed refusal cells unwritten
  | serving keyed opens cells opened => exact .serving keyed opens cells (hhandles _ _ opened)

/-! ## Asking, reading, writing -/

/-- The handle that a store has is that of the archive. -/
theorem Holding.gives_of_held (h : Holding fs path store world staged) {key : String}
    (keyed : Store.key fs path = .ok key) (held : store.held? key = some id) :
    store.Gives id ∧ ∃ handle, opening fs path = .ok handle := by
  cases h with
  | fresh empty unwritten =>
    rw [empty] at held
    contradiction
  | refused keyed' refusal cells unwritten =>
    cases keyed.symm.trans keyed'
    rw [cells, Store.held?_singleton] at held
    contradiction
  | serving keyed' opens cells opened =>
    cases keyed.symm.trans keyed'
    rw [cells, Store.held?_singleton] at held
    cases held
    exact ⟨⟨key, cells⟩, _, (opening_eq_openAt keyed).trans opens⟩

/-- An archive that cannot be opened is never open. -/
theorem Holding.refuse (h : Holding fs path store world staged) {key : String} {e : Error}
    (keyed : Store.key fs path = .ok key) (refusal : Handle.openAt fs key = .error e) :
    Holding fs path (store.register key none) world staged
      ∧ ∀ id, store.Gives id → (store.register key none).Gives id := by
  cases h with
  | fresh empty unwritten =>
    subst empty
    refine ⟨.refused keyed refusal (Store.register_empty key none) unwritten, ?_⟩
    rintro id ⟨key', hcells⟩
    cases hcells
  | refused keyed' refusal' cells unwritten =>
    cases keyed.symm.trans keyed'
    subst cells
    rw [Store.register_singleton]
    exact ⟨.refused keyed refusal rfl unwritten, fun _ hgives => hgives⟩
  | serving keyed' opens cells opened =>
    cases keyed.symm.trans keyed'
    cases refusal.symm.trans opens

/-- The archive is opened once, before anything is written to it. -/
theorem Holding.serve (h : Holding fs path store world staged) {key : String} {source : Source}
    (keyed : Store.key fs path = .ok key) (vacant : store.held? key = none)
    (opens : Handle.openAt fs key = .ok ⟨key, some source, ∅⟩) (log : List Log.Message) :
    Holding fs path (store.register key (some world.handles.size))
        ⟨world.files, world.handles.push ⟨key, some source, ∅⟩, log⟩ staged
      ∧ (store.register key (some world.handles.size)).Gives world.handles.size
      ∧ ∀ id, ¬ store.Gives id := by
  cases h with
  | fresh empty unwritten =>
    subst empty unwritten
    refine ⟨.serving keyed opens (Store.register_empty key _) Array.getElem?_push_size,
      ⟨key, Store.register_empty key _⟩, ?_⟩
    rintro id ⟨key', hcells⟩
    cases hcells
  | refused keyed' refusal cells unwritten =>
    cases keyed.symm.trans keyed'
    cases refusal.symm.trans opens
  | serving keyed' opens' cells opened =>
    cases keyed.symm.trans keyed'
    rw [cells, Store.held?_singleton] at vacant
    contradiction

/-- Asked for the archive, the store answers what was settled before, and gives the same handle as
before. -/
theorem Holding.handle (h : Holding fs path store world staged) (hfiles : WellFormed fs)
    (hsame : Unchanged (archivePlaces fs path) fs world.files) :
    ∃ store' world' result, store.handle world path = (store', world', result)
      ∧ Holding fs path store' world' staged ∧ world'.files = world.files
      ∧ (∀ id, store.Gives id → store'.Gives id)
      ∧ ((∃ e, opening fs path = .error e ∧ result = .error e)
        ∨ ∃ handle id, opening fs path = .ok handle ∧ result = .ok id ∧ store'.Gives id) := by
  have hkey := hsame.key_eq hfiles (staysIn_archivePlaces fs path)
  rcases hhandle : store.handle world path with ⟨store', world', result⟩
  refine ⟨store', world', result, rfl, ?_⟩
  -- the files on the way of the path are unchanged, so the key and the archive are the same
  cases Store.asks_of_handle hhandle with
  | @invalid e keyed =>
    rw [hkey] at keyed
    refine ⟨h, rfl, fun _ hgives => hgives, .inl ⟨e, ?_, rfl⟩⟩
    rw [opening, keyed]
    rfl
  | @held key id keyed held =>
    rw [hkey] at keyed
    obtain ⟨hgives, handle, hopening⟩ := h.gives_of_held keyed held
    exact ⟨h, rfl, fun _ hgives => hgives, .inr ⟨handle, id, hopening, rfl, hgives⟩⟩
  | @refused key e keyed vacant refusal =>
    rw [hkey] at keyed
    rw [hsame.openAt_eq hfiles (staysIn_archivePlaces_key keyed).1] at refusal
    obtain ⟨hafter, hgives⟩ := h.refuse keyed refusal
    exact ⟨hafter, rfl, hgives, .inl ⟨e, (opening_eq_openAt keyed).trans refusal, rfl⟩⟩
  | @opened key handle log keyed vacant opens =>
    rw [hkey] at keyed
    rw [hsame.openAt_eq hfiles (staysIn_archivePlaces_key keyed).1] at opens
    obtain ⟨file, directory, -, -, -, rfl⟩ := Handle.openAt_eq_ok_iff.1 opens
    obtain ⟨hafter, hgives, hnone⟩ := h.serve keyed vacant opens log
    exact ⟨hafter, rfl, fun id hid => absurd hid (hnone id),
      .inr ⟨_, _, (opening_eq_openAt keyed).trans opens, rfl, hgives⟩⟩

/-- What is not staged is read as it was before anything was. -/
theorem Holding.readEntry (h : Holding fs path store world staged) (hgives : store.Gives id)
    (hsame : Unchanged (archivePlaces fs path) fs world.files) {entry : String}
    (hunstaged : staged.get? (normalizeEntry entry) = none) :
    world.readEntry id entry = (opening fs path).bind fun handle => handle.read fs entry := by
  obtain ⟨key', hcells⟩ := hgives
  cases h with
  | fresh empty unwritten => cases hcells.symm.trans empty
  | refused keyed refusal cells unwritten => cases hcells.symm.trans cells
  | @serving key source id' keyed opens cells opened =>
    cases hcells.symm.trans cells
    -- the archive's file stands on the way of its path, so it has the same data
    obtain ⟨l, hl, hnode⟩ := exists_mem_archivePlaces keyed opens rfl
    have hdata := (hsame.same l hl).data _ hnode
    rw [World.readEntry, Store.handle_of_getElem? opened, opening_eq_openAt keyed, opens]
    dsimp only [Except.bind]
    rw [Handle.read, Handle.read]
    dsimp only
    rw [hunstaged, OrderedTable.get?_empty]
    simp only [Source.bytes, hdata]

/-- A write through the handle succeeds. -/
theorem Holding.writeEntry (h : Holding fs path store world staged) (hgives : store.Gives id)
    (entry : String) (bytes : Bytes) :
    ∃ world', world.writeEntry id entry bytes = (world', .ok ())
      ∧ Holding fs path store world' (staged.insert (normalizeEntry entry) bytes)
      ∧ world'.files = world.files := by
  obtain ⟨key', hcells⟩ := hgives
  cases h with
  | fresh empty unwritten => cases hcells.symm.trans empty
  | refused keyed refusal cells unwritten => cases hcells.symm.trans cells
  | serving keyed opens cells opened =>
    cases hcells.symm.trans cells
    obtain ⟨hbound, -⟩ := Array.getElem?_eq_some_iff.1 opened
    rw [World.writeEntry, Store.handle_of_getElem? opened, Handle.write]
    exact ⟨_, rfl, .serving keyed opens cells (Array.getElem?_setIfInBounds_self_of_lt hbound), rfl⟩

/-! ## Closing -/

/-- Closing the store does nothing to the files if nothing is staged, and else puts what is staged
into the archive's file. -/
theorem Holding.closeAll_cases (h : Holding fs path store world staged) :
    staged.isEmpty = true ∧ (store.closeAll world).2.1.files = world.files
        ∧ (store.closeAll world).2.2 = []
      ∨ staged.isEmpty = false ∧ ∃ key source, Store.key fs path = .ok key
        ∧ Handle.openAt fs key = .ok ⟨key, some source, ∅⟩
        ∧ (store.closeAll world).2.1.files = (Handle.flush world.files source staged key).1
        ∧ ((Handle.flush world.files source staged key).2 = .ok () →
          (store.closeAll world).2.2 = [])
        ∧ ∀ e, (Handle.flush world.files source staged key).2 = .error e →
          (store.closeAll world).2.2 = [⟨key, e⟩] := by
  cases h with
  | fresh empty unwritten =>
    subst empty unwritten
    rw [Store.closeAll, Store.ordered, Store.empty, List.mergeSort_nil]
    exact .inl ⟨rfl, rfl, rfl⟩
  | refused keyed refusal cells unwritten =>
    subst cells unwritten
    rw [Store.closeAll, Store.ordered, List.mergeSort_singleton]
    exact .inl ⟨rfl, rfl, rfl⟩
  | @serving key source id keyed opens cells opened =>
    subst cells
    -- the store has one cell, so closing it is closing that handle
    have hhandle := Store.handle_of_getElem? opened
    rw [Store.closeAll, Store.ordered, List.mergeSort_singleton, Store.closeCells,
      World.closeHandle, hhandle]
    cases hstaged : staged.isEmpty with
    | true =>
      left
      rw [Handle.close]
      dsimp only
      rw [hstaged]
      exact ⟨rfl, rfl, rfl⟩
    | false =>
      right
      refine ⟨rfl, key, source, keyed, opens, ?_⟩
      rw [Handle.close_eq rfl hstaged]
      dsimp only
      rcases Handle.flush world.files source staged key with ⟨files, e | done⟩
      · exact ⟨rfl, fun h => (by cases h), fun e h => (by cases h; rfl)⟩
      · exact ⟨rfl, fun _ => rfl, fun e h => by cases h⟩

/-- Closing the store leads no path from the archive's places to others, and changes the data of no
file that stands elsewhere. -/
theorem Holding.frame_closeAll (h : Holding fs path store world staged)
    (hsame : Unchanged (archivePlaces fs path) fs world.files) :
    (∀ other, fs.StaysIn (archivePlaces fs path) other →
        (store.closeAll world).2.1.files.StaysIn (archivePlaces fs path) other)
      ∧ ∀ j < world.files.files.size,
        (∀ l ∈ archivePlaces fs path, fs.node? l ≠ some (.file j)) →
          (store.closeAll world).2.1.files.data j = world.files.data j := by
  rcases h.closeAll_cases with
    ⟨-, hclosed, -⟩ | ⟨-, key, source, hkey, hopen, hclosed, -⟩
  · rw [hclosed]
    exact ⟨fun other hother => hsame.staysIn hother, fun _ _ _ => rfl⟩
  · rw [hclosed]
    have habsolute := Store.isAbsolute_key hkey
    have hflushes := Handle.flushes_flush source staged hsame.wellFormed habsolute
    obtain ⟨-, hbeside⟩ := staysIn_archivePlaces_key hkey
    refine ⟨fun other hother => ?_, fun j hj hother => ?_⟩
    · exact Handle.staysIn_of_flushes habsolute (hsame.staysIn hbeside) hflushes
        (hsame.staysIn hother)
    · refine Handle.data_of_flushes hflushes hj fun l hl hnode => ?_
      have hplace := hsame.staysIn hbeside l hl
      rw [(hsame.same l hplace).node] at hnode
      exact hother l hplace hnode

/-- The same writes come to the same, whatever others did elsewhere: closing the store reports the
same failures, and the places that decide what becomes of the archive look alike afterwards. -/
theorem Holding.closeAll_alike (h : Holding fs path store world staged)
    (h' : Holding fs path store' world' staged)
    (hsame : Unchanged (archivePlaces fs path) fs world.files)
    (hsame' : Unchanged (archivePlaces fs path) fs world'.files) :
    (store'.closeAll world').2.2 = (store.closeAll world).2.2
      ∧ ∃ pair, Alike pair (archivePlaces fs path) (store.closeAll world).2.1.files
        (store'.closeAll world').2.1.files := by
  have halike := alike_of_sameAt hsame.wellFormed hsame'.wellFormed hsame.current hsame'.current
    hsame.same hsame'.same
  rcases h.closeAll_cases with
    ⟨hempty, hclosed, hfailures⟩ | ⟨hstaged, key, source, hkey, hopen, hclosed, hnone, hone⟩
  · rcases h'.closeAll_cases with ⟨-, hclosed', hfailures'⟩ | ⟨hstaged, -⟩
    · rw [hclosed, hclosed', hfailures, hfailures']
      exact ⟨rfl, _, halike⟩
    · rw [hempty] at hstaged
      contradiction
  · rcases h'.closeAll_cases with ⟨hempty, -⟩ | ⟨-, key', source', hkey', hopen', hclosed', hnone',
      hone'⟩
    · rw [hempty] at hstaged
      contradiction
    · cases hkey.symm.trans hkey'
      cases hopen.symm.trans hopen'
      obtain ⟨hpath, hbeside⟩ := staysIn_archivePlaces_key hkey
      obtain ⟨l, hl, hnode⟩ := exists_mem_archivePlaces hkey hopen rfl
      obtain ⟨hanswer, hafter⟩ := Handle.matching_flush halike ⟨rfl, l, hl, hnode⟩ staged
        (hsame.staysIn hpath) (hsame.staysIn hbeside)
      rw [hclosed, hclosed']
      refine ⟨?_, hafter⟩
      cases hflush : (Handle.flush world.files source staged key).2 with
      | ok done => rw [hnone hflush, hnone' (hanswer.trans hflush)]
      | error e => rw [hone e hflush, hone' e (hanswer.trans hflush)]

/-- After closing, the path of the archive gives the same bytes. -/
theorem Holding.contents_closeAll (h : Holding fs path store world staged)
    (h' : Holding fs path store' world' staged)
    (hsame : Unchanged (archivePlaces fs path) fs world.files)
    (hsame' : Unchanged (archivePlaces fs path) fs world'.files) :
    (store'.closeAll world').2.1.files.contents path
      = (store.closeAll world).2.1.files.contents path := by
  obtain ⟨-, pair, halike⟩ := h.closeAll_alike h' hsame hsame'
  have hpath := (h.frame_closeAll hsame).1 path (staysIn_archivePlaces fs path)
  rw [contents_eq_look, contents_eq_look, halike.look_eq hpath]

end Reline.Archive
