/-
  Reline.Proofs.Batch.Working

  The store of a batch while it works on one archive.

  A batch asks its store for one archive only. Until then the store is empty;
  from then on it has one handle, and what that has staged are the writes so far.
  The sink may change the world between any two steps, as long as it spares the
  archive and what stands beside it. When the store is closed, the writes are put
  into the archive's file, if there are any.
-/

import Reline.Proofs.Archive.Listing
import Reline.Sink.Basic

namespace Reline.Batch

open Archive FileSystem

/-! ## Sparing the archive -/

/-- Whether a path leads to an archive with nothing at the place at which it is built anew. -/
structure Isolated (path : String) (location : Location) (source : Source) (fs : FileSystem) :
    Prop where
  archived : Archived fs location source
  key : Store.key fs path = .ok (pathOf location)
  free : fs.node? (Handle.besides location) = none

/-- A change of the world that leaves alone the archive of a path, the place beside it, and the
handles that are there. -/
structure Spares (path : String) (location : Location) (world world' : World) : Prop where
  wellFormed : WellFormed world.files → WellFormed world'.files
  key : Store.key world'.files path = Store.key world.files path
  place : world'.files.inspect (pathOf location) = world.files.inspect (pathOf location)
  archive : SameAt world.files world'.files location
  beside : SameAt world.files world'.files (Handle.besides location)
  handles : ∀ (id : HandleId) (handle : Handle), world.handles[id]? = some handle →
    world'.handles[id]? = some handle

/-- Whether a sink whose files are its own spares the archive of a path. -/
structure Sparing {σ : Type} [TextSink σ] (path : String) (location : Location)
    (own : σ → FileSystem → Prop) : Prop where
  save : ∀ sink world qualifiedName entryName content, own sink world.files →
    own (TextSink.save sink world qualifiedName entryName content).1
        (TextSink.save sink world qualifiedName entryName content).2.1.files
      ∧ Spares path location world (TextSink.save sink world qualifiedName entryName content).2.1
  close : ∀ sink world, own sink world.files →
    Spares path location world (TextSink.close sink world).2.1

variable {path : String} {location : Location} {source : Source} {store : Store}
  {world world' : World} {id : HandleId} {writes : List Write}

theorem Spares.refl (path : String) (location : Location) (world : World) :
    Spares path location world world where
  wellFormed h := h
  key := rfl
  place := rfl
  archive := .refl _ _
  beside := .refl _ _
  handles _ _ hid := hid

/-- A record in the log spares every archive. -/
theorem Spares.record (path : String) (location : Location) (world : World) (level : Log.Level)
    (origin : Log.Source) (text : String) :
    Spares path location world (world.record level origin text) :=
  { Spares.refl path location world with }

theorem Spares.trans {world'' : World} (h : Spares path location world world')
    (h' : Spares path location world' world'') : Spares path location world world'' where
  wellFormed hfiles := h'.wellFormed (h.wellFormed hfiles)
  key := h'.key.trans h.key
  place := h'.place.trans h.place
  archive := h.archive.trans h'.archive
  beside := h.beside.trans h'.beside
  handles id handle hid := h'.handles id handle (h.handles id handle hid)

/-- The bytes of an archive that is spared stay as they are. -/
theorem Spares.data_eq (h : Spares path location world world')
    (harchived : Archived world.files location source) :
    world'.files.data source.file = world.files.data source.file :=
  h.archive.data _ (node?_of_inspect (isAbsolute_pathOf location) harchived.place).2

theorem Spares.isolated (h : Spares path location world world')
    (hisolated : Isolated path location source world.files) :
    Isolated path location source world'.files := by
  obtain ⟨harchived, hkey, hfree⟩ := hisolated
  have hdata := h.data_eq harchived
  have hplace := h.place.trans harchived.place
  refine ⟨⟨h.wellFormed harchived.wellFormed, hplace, ?_⟩, h.key.trans hkey,
    h.beside.node.trans hfree⟩
  obtain ⟨file, directory, hfile, hmedium, hread, heq⟩ := Handle.openAt_eq_ok_iff.1 harchived.opens
  cases heq
  have hopened := openFile_eq_ok_some_iff.2 ⟨location, hplace⟩
  rw [← hdata] at hmedium hread
  rw [Handle.openAt_eq_ok_iff]
  exact ⟨file, directory, hopened, hmedium, hread, by rw [hdata]⟩

theorem Spares.listing_eq (h : Spares path location world world')
    (harchived : Archived world.files location source) :
    source.listing world'.files = source.listing world.files := by
  rw [Source.listing, Source.listing, h.data_eq harchived]

/-! ## The handle of the archive -/

/-- A store that has one handle, which is of the archive and has staged the writes so far. -/
structure Serving (location : Location) (source : Source) (store : Store) (world : World)
    (id : HandleId) (writes : List Write) : Prop where
  found : (store.find? (pathOf location)).bind Cell.handle = some id
  opened : world.handles[id]? = some ⟨pathOf location, some source, stage ∅ writes⟩
  sole : ∀ cell ∈ store.cells, ∀ i, cell.handle = some i → i = id

/-- A store that was not asked for anything, or that serves the archive. -/
inductive Working (location : Location) (source : Source) (store : Store) (world : World)
    (writes : List Write) : Prop where
  | fresh (empty : store = .empty) (unwritten : writes = [])
  | serving (id : HandleId) (serves : Serving location source store world id writes)

theorem Serving.serves (h : Serving location source store world id writes) :
    store.Serves world (pathOf location) id ⟨pathOf location, some source, stage ∅ writes⟩ where
  found := h.found
  opened := h.opened
  others cell hcell i hi := .inl (h.sole cell hcell i hi)

theorem Serving.spared (h : Serving location source store world id writes)
    (hspares : Spares path location world world') :
    Serving location source store world' id writes where
  found := h.found
  opened := hspares.handles _ _ h.opened
  sole := h.sole

theorem Working.spared (h : Working location source store world writes)
    (hspares : Spares path location world world') :
    Working location source store world' writes := by
  cases h with
  | fresh empty unwritten => exact .fresh empty unwritten
  | serving id serves => exact .serving id (serves.spared hspares)

/-- Asked for the archive, the store gives its handle, which it opens the first time. -/
theorem Working.handle_eq (h : Working location source store world writes)
    (hisolated : Isolated path location source world.files) :
    ∃ store' world' id, store.handle world path = (store', world', .ok id)
      ∧ Serving location source store' world' id writes ∧ world'.files = world.files := by
  cases h with
  | serving id serves =>
    exact ⟨store, world, id, serves.serves.handle_eq hisolated.key, serves, rfl⟩
  | fresh empty unwritten =>
    subst empty unwritten
    have hfound : (Store.empty.find? (pathOf location)).bind Cell.handle = none := rfl
    rw [Store.handle, hisolated.key]
    dsimp only
    rw [hfound, World.openArchive, hisolated.archived.opens]
    refine ⟨_, _, _, rfl, ⟨?_, Array.getElem?_push_size, ?_⟩, rfl⟩
    · rw [Store.bind_find?_register, if_pos (Store.sameKey_iff.2 rfl)]
    · intro cell hcell i hi
      rcases Store.mem_register_cases hcell with ⟨hnew, -⟩ | hold
      · exact (Option.some.inj (hi.symm.trans hnew))
      · exact absurd hold List.not_mem_nil

/-- A write through the handle succeeds, and is one more write. -/
theorem Serving.writeEntry (h : Serving location source store world id writes) (w : Write) :
    ∃ world', world.writeEntry id w.entry w.bytes = (world', .ok ())
      ∧ Serving location source store world' id (writes ++ [w]) ∧ world'.files = world.files := by
  obtain ⟨hbound, -⟩ := Array.getElem?_eq_some_iff.1 h.opened
  rw [World.writeEntry, Store.handle_of_getElem? h.opened, Handle.write]
  refine ⟨_, rfl, ⟨h.found, ?_, h.sole⟩, rfl⟩
  dsimp only
  rw [Array.getElem?_setIfInBounds_self_of_lt hbound, ← stage_concat]

/-- A read through the handle gives what is staged, and else what the archive contains. -/
theorem Serving.readEntry (h : Serving location source store world id writes)
    (harchived : Archived world.files location source) (entry : String) :
    world.readEntry id entry
      = match (stage ∅ writes).get? (normalizeEntry entry) with
        | some bytes => .ok bytes
        | none => Handle.answer (pathOf location) entry (contained world.files source entry) := by
  rw [World.readEntry, Store.handle_of_getElem? h.opened, Handle.read_eq rfl,
    bytes_of_length harchived.length_eq]
  rfl

/-! ## Closing -/

/-- Whether what the handles of a store would put into their files reopens. -/
def StagedReopens (store : Store) (world : World) : Prop :=
  ∀ cell ∈ store.cells, ∀ id, cell.handle = some id → (world.handle id).staged.isEmpty = false →
    ∀ source, (world.handle id).source = some source → ∀ items,
      Handle.rebuiltItems (world.files.data source.file).bytes source.directory
        (world.handle id).staged = .ok items → Zip.Reopens items source.directory.comment

/-- Closing the store keeps the listing of the archive but for what was written, if that went to
listed names only. -/
theorem Working.listing_closed {after : World} (h : Working location source store world writes)
    (hisolated : Isolated path location source world.files)
    (hnodup : (source.directory.entries.map Zip.Entry.name).Nodup)
    (hlisted : ∀ n bytes, (stage ∅ writes).get? n = some bytes →
      n ∈ source.directory.entries.map Zip.Entry.name)
    (hreopens : StagedReopens store world) (hclose : (store.closeAll world).2 = (after, [])) :
    ∃ source', Archived after.files location source'
      ∧ source'.listing after.files = (source.listing world.files).map (overlay (stage ∅ writes))
      ∧ Store.key after.files path = .ok (pathOf location) := by
  obtain ⟨harchived, hkey, hfree⟩ := hisolated
  by_cases hne : writes = []
  · -- with nothing staged no file changes
    subst hne
    have hfiles : after.files = world.files := by
      have hclean : ∀ cell ∈ store.ordered, ∀ i, cell.handle = some i →
          (world.handle i).staged.isEmpty := by
        intro cell hcell i hi
        rw [Store.ordered, List.mem_mergeSort] at hcell
        cases h with
        | fresh empty unwritten =>
          subst empty
          contradiction
        | serving id serves =>
          rw [serves.sole cell hcell i hi, Store.handle_of_getElem? serves.opened]
          rfl
      exact (congrArg (·.1.files) hclose).symm.trans (Store.closeCells_of_clean hclean)
    rw [hfiles]
    refine ⟨source, harchived, ?_, hkey⟩
    have hoverlay : overlay (stage ∅ []) = id := by
      funext listed
      rfl
    rw [hoverlay, List.map_id]
  · cases h with
    | fresh empty unwritten => exact absurd unwritten hne
    | serving id serves =>
      have hhandle := Store.handle_of_getElem? serves.opened
      have hflush := serves.serves.exists_flush rfl (isEmpty_stage hne ∅)
        (show store.closeAll world = (.empty, after, []) from Prod.ext rfl hclose)
      have hlink : ∀ goal, world.files.node? (Handle.besides location) ≠ some (.link goal) := by
        intro goal
        rw [hfree]
        nofun
      obtain ⟨cell, hfind, hcell⟩ := Option.bind_eq_some_iff.1 serves.found
      have hitems := hreopens cell (List.mem_of_find?_eq_some hfind) id hcell
      rw [hhandle] at hitems
      have hitems := hitems (isEmpty_stage hne ∅) source rfl
      obtain ⟨source', harchived', hlisting, hkeys⟩ :=
        harchived.listing_flushed hlink hitems hflush hnodup hlisted
      exact ⟨source', harchived', hlisting, hkeys path hkey⟩

end Reline.Batch
