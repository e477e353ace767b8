/-
  Reline.Proofs.Archive.Store

  What a store holds while one of its archives is written.

  From the first write on, all paths that lead to the archive find one handle,
  and nothing but the writes staged in that handle changes. Closing the store
  flushes this handle once, wherever it stands among the others, which have
  nothing to flush.
-/

import Reline.Archive.Store
import Reline.Proofs.Archive.Handle

namespace Reline.Archive

/-! ## Writes -/

/-- A write to an entry of the archive that a path leads to. -/
structure Write where
  path : String
  entry : String
  bytes : Bytes

/-- The bytes that the last write gave an entry, if there was one. -/
def lastWrite (writes : List Write) (entry : String) : Option Bytes :=
  (writes.reverse.find? fun w => normalizeEntry w.entry = normalizeEntry entry).map Write.bytes

/-- The staged writes after further writes. -/
def stage (staged : OrderedTable String Bytes) (writes : List Write) : OrderedTable String Bytes :=
  writes.foldl (fun staged w => staged.insert (normalizeEntry w.entry) w.bytes) staged

theorem lastWrite_cons (w : Write) (writes : List Write) (entry : String) :
    lastWrite (w :: writes) entry
      = (lastWrite writes entry).or
        (if normalizeEntry w.entry = normalizeEntry entry then some w.bytes else none) := by
  rw [lastWrite, find?_reverse_cons, Option.map_or]
  congr 1
  by_cases hname : normalizeEntry w.entry = normalizeEntry entry
  · rw [if_pos hname, if_pos (decide_eq_true hname), Option.map_some]
  · rw [if_neg hname, if_neg (by simpa using hname), Option.map_none]

theorem stage_concat (staged : OrderedTable String Bytes) (writes : List Write) (w : Write) :
    stage staged (writes ++ [w])
      = (stage staged writes).insert (normalizeEntry w.entry) w.bytes := by
  rw [stage, List.foldl_append]
  rfl

/-- What is staged for an entry is the last write to it, and else what was staged before. -/
theorem get?_stage (writes : List Write) (staged : OrderedTable String Bytes) (entry : String) :
    (stage staged writes).get? (normalizeEntry entry)
      = (lastWrite writes entry).or (staged.get? (normalizeEntry entry)) := by
  induction writes generalizing staged with
  | nil => rfl
  | cons w writes ih =>
    have hstep : stage staged (w :: writes)
        = stage (staged.insert (normalizeEntry w.entry) w.bytes) writes := rfl
    rw [hstep, ih, lastWrite_cons, OrderedTable.get?_insert, Option.or_assoc]
    congr 1
    by_cases hname : normalizeEntry w.entry = normalizeEntry entry
    · rw [if_pos hname.symm, if_pos hname, Option.some_or]
    · rw [if_neg (Ne.symm hname), if_neg hname, Option.none_or]

@[simp] theorem get?_stage_empty (writes : List Write) (entry : String) :
    (stage ∅ writes).get? (normalizeEntry entry) = lastWrite writes entry := by
  rw [get?_stage, OrderedTable.get?_empty, Option.or_none]

theorem isEmpty_stage {writes : List Write} (hne : writes ≠ [])
    (staged : OrderedTable String Bytes) : (stage staged writes).isEmpty = false := by
  obtain ⟨w, rest, rfl⟩ := List.exists_cons_of_ne_nil hne
  have hget := get?_stage (w :: rest) staged w.entry
  rw [lastWrite_cons, if_pos rfl, Option.or_assoc, Option.some_or] at hget
  cases hrest : lastWrite rest w.entry with
  | none =>
    rw [hrest, Option.none_or] at hget
    exact OrderedTable.isEmpty_eq_false_of_get? hget
  | some bytes =>
    rw [hrest, Option.some_or] at hget
    exact OrderedTable.isEmpty_eq_false_of_get? hget

namespace Store

variable {store : Store} {world : World} {key path : String} {id : HandleId} {handle : Handle}

/-- Makes writes in turn, up to the first one that fails. -/
def writeAll (store : Store) (world : World) : List Write → Store × World × Except Error Unit
  | [] => (store, world, .ok ())
  | w :: writes =>
    match store.write world w.path w.entry w.bytes with
    | (store, world, .ok ()) => writeAll store world writes
    | (store, world, .error e) => (store, world, .error e)

/-! ## Finding the handle -/

theorem sameKey_iff {a b : String} :
    sameKey a b = true ↔ FileSystem.Path.names a = FileSystem.Path.names b :=
  decide_eq_true_iff

/-- Keys that name the same place have one cell. -/
theorem find?_congr (store : Store) {key key' : String} (h : sameKey key key' = true) :
    store.find? key = store.find? key' := by
  have hsame : (fun cell : Cell => sameKey cell.key key) = fun cell => sameKey cell.key key' := by
    funext cell
    rw [sameKey, sameKey, sameKey_iff.1 h]
  rw [find?, find?, hsame]

theorem sameKey_of_find? {cell : Cell} (h : store.find? key = some cell) :
    sameKey cell.key key = true :=
  List.find?_some (p := fun cell : Cell => sameKey cell.key key) h

theorem find?_concat (store : Store) (cell : Cell) (key : String) :
    (⟨store.cells ++ [cell]⟩ : Store).find? key
      = (store.find? key).or (if sameKey cell.key key then some cell else none) := by
  rw [find?, List.find?_append, List.find?_singleton]
  rfl

/-- If cells keep their keys, the same one is found. -/
theorem find?_map (store : Store) (key : String) {f : Cell → Cell}
    (hf : ∀ cell, (f cell).key = cell.key) :
    (⟨store.cells.map f⟩ : Store).find? key = (store.find? key).map f := by
  have hkeys : (fun cell : Cell => sameKey cell.key key) ∘ f
      = fun cell => sameKey cell.key key := by
    funext cell
    rw [Function.comp_apply, hf]
  rw [find?, find?, List.find?_map, hkeys]

/-- Registering a handle changes what is found under keys of its place, and nothing else. -/
theorem bind_find?_register (store : Store) (key key' : String) (handle : Option HandleId) :
    ((store.register key handle).find? key').bind Cell.handle
      = if sameKey key key' then handle else (store.find? key').bind Cell.handle := by
  rw [register]
  cases hfind : store.find? key with
  | none =>
    dsimp only
    rw [find?_concat]
    split
    case isTrue hsame =>
      rw [← store.find?_congr hsame, hfind]
      rfl
    case isFalse => rw [Option.or_none]
  | some cell =>
    dsimp only
    rw [find?_map store key' fun cell => by split <;> rfl]
    split
    case isTrue hsame =>
      rw [← store.find?_congr hsame, hfind, Option.map_some, if_pos (sameKey_of_find? hfind)]
      rfl
    case isFalse hother =>
      cases hfound : store.find? key' with
      | none => rfl
      | some cell' =>
        have hcell' := sameKey_iff.1 (sameKey_of_find? hfound)
        rw [Option.map_some, if_neg]
        intro hsame
        exact hother (sameKey_iff.2 ((sameKey_iff.1 hsame).symm.trans hcell'))

theorem mem_register_cases {cell : Cell} {handle : Option HandleId}
    (h : cell ∈ (store.register key handle).cells) :
    cell.handle = handle ∧ sameKey cell.key key = true ∨ cell ∈ store.cells := by
  rw [register] at h
  split at h
  case h_1 =>
    obtain ⟨old, hold, rfl⟩ := List.mem_map.1 h
    split
    case isTrue hsame => exact .inl ⟨rfl, hsame⟩
    case isFalse => exact .inr hold
  case h_2 =>
    rcases List.mem_append.1 h with hold | hnew
    · exact .inr hold
    · rw [List.mem_singleton.1 hnew]
      exact .inl ⟨rfl, sameKey_iff.2 rfl⟩

/-- Whether nothing is staged in a store, and it holds the archive at a key, if at all, as it would
be opened now. -/
structure Ready (store : Store) (world : World) (key : String) : Prop where
  clean : ∀ cell ∈ store.cells, ∀ id, cell.handle = some id → (world.handle id).staged.isEmpty
  fresh : ∀ id, (store.find? key).bind Cell.handle = some id →
    Handle.openAt world.files key = .ok (world.handle id)

/-- Whether a store serves the archive at a key through a handle, with nothing staged in others. -/
structure Serves (store : Store) (world : World) (key : String) (id : HandleId) (handle : Handle) :
    Prop where
  found : (store.find? key).bind Cell.handle = some id
  opened : world.handles[id]? = some handle
  others : ∀ cell ∈ store.cells, ∀ i, cell.handle = some i →
    i = id ∨ (world.handle i).staged.isEmpty

/-- A store without archives is ready for each. -/
theorem ready_empty (world : World) (key : String) : empty.Ready world key :=
  ⟨fun _ hcell => absurd hcell List.not_mem_nil, nofun⟩

theorem handle_of_getElem? (h : world.handles[id]? = some handle) : world.handle id = handle := by
  rw [World.handle, Array.getD_eq_getD_getElem?, h, Option.getD_some]

/-- A store that serves an archive finds its handle by any path that leads there. -/
theorem Serves.handle_eq (h : store.Serves world key id handle)
    (hkey : Store.key world.files path = .ok key) :
    store.handle world path = (store, world, .ok id) := by
  rw [Store.handle, hkey]
  dsimp only
  rw [h.found]

/-- A store that is ready for an archive serves it when it is asked for it. -/
theorem Ready.serves (h : store.Ready world key) (hkey : Store.key world.files path = .ok key)
    (hopen : Handle.openAt world.files key = .ok handle) :
    ∃ store' world' id, store.handle world path = (store', world', .ok id)
      ∧ store'.Serves world' key id handle ∧ world'.files = world.files := by
  rw [Store.handle, hkey]
  dsimp only
  cases hfound : (store.find? key).bind Cell.handle with
  | some id =>
    have hfresh := h.fresh id hfound
    rw [hopen, Except.ok.injEq] at hfresh
    refine ⟨store, world, id, rfl, ⟨hfound, ?_, ?_⟩, rfl⟩
    · -- a number without a handle would stand for one that is closed
      obtain ⟨file, directory, -, -, -, hopened⟩ := Handle.openAt_eq_ok_iff.1 hopen
      rw [hfresh, World.handle, Array.getD_eq_getD_getElem?] at hopened
      rw [hfresh, World.handle, Array.getD_eq_getD_getElem?]
      cases hid : world.handles[id]? with
      | some handle => rfl
      | none =>
        rw [hid] at hopened
        cases hopened
    · intro cell hcell i hi
      exact .inr (h.clean cell hcell i hi)
  | none =>
    rw [World.openArchive, hopen]
    refine ⟨_, _, _, rfl, ⟨?_, Array.getElem?_push_size, ?_⟩, rfl⟩
    · rw [bind_find?_register, if_pos (sameKey_iff.2 rfl)]
    · intro cell hcell i hi
      -- a handle with another number was there before
      rw [or_iff_not_imp_left]
      intro hne
      have hold : (world.handle i).staged.isEmpty = true := by
        rcases mem_register_cases hcell with ⟨hnew, -⟩ | hmem
        · exact absurd (Option.some.inj (hi.symm.trans hnew)) hne
        · exact h.clean cell hmem i hi
      rw [World.handle, Array.getD_eq_getD_getElem?] at hold ⊢
      rw [Array.getElem?_push, if_neg hne]
      exact hold

/-! ## Writing and reading -/

/-- A write changes what is staged in the handle, and nothing else. -/
theorem Serves.write_eq {source : Source} (h : store.Serves world key id handle)
    (hsource : handle.source = some source) (hkey : Store.key world.files path = .ok key)
    (entry : String) (bytes : Bytes) :
    ∃ world', store.write world path entry bytes = (store, world', .ok ())
      ∧ world'.files = world.files
      ∧ store.Serves world' key id
        { handle with staged := handle.staged.insert (normalizeEntry entry) bytes } := by
  rw [Store.write, h.handle_eq hkey]
  dsimp only
  rw [World.writeEntry, handle_of_getElem? h.opened, Handle.write, hsource]
  refine ⟨_, rfl, rfl, h.found, ?_, ?_⟩
  · obtain ⟨hid, -⟩ := Array.getElem?_eq_some_iff.1 h.opened
    exact Array.getElem?_setIfInBounds_self_of_lt hid
  · intro cell hcell i hi
    rcases h.others cell hcell i hi with hsame | hclean
    · exact .inl hsame
    · rw [or_iff_not_imp_left]
      intro hne
      rw [World.handle, Array.getD_eq_getD_getElem?] at hclean ⊢
      rw [Array.getElem?_setIfInBounds_ne (Ne.symm hne)]
      exact hclean

/-- All writes are staged, in turn. -/
theorem Serves.writeAll_eq {source : Source} {writes : List Write}
    (h : store.Serves world key id handle) (hsource : handle.source = some source)
    (hkeys : ∀ w ∈ writes, Store.key world.files w.path = .ok key) :
    ∃ world', store.writeAll world writes = (store, world', .ok ())
      ∧ world'.files = world.files
      ∧ store.Serves world' key id { handle with staged := stage handle.staged writes } := by
  induction writes generalizing world handle with
  | nil => exact ⟨world, rfl, rfl, h⟩
  | cons w writes ih =>
    obtain ⟨hkey, hkeys⟩ := List.forall_mem_cons.1 hkeys
    obtain ⟨world₁, hwrite, hfiles₁, h₁⟩ := h.write_eq hsource hkey w.entry w.bytes
    rw [← hfiles₁] at hkeys
    obtain ⟨world₂, hwrites, hfiles₂, h₂⟩ := ih h₁ hsource hkeys
    refine ⟨world₂, ?_, hfiles₂.trans hfiles₁, h₂⟩
    rw [writeAll, hwrite]
    exact hwrites

/-- The first write to an archive opens it; all are staged, in turn. -/
theorem Ready.writeAll_eq {source : Source} {writes : List Write} (h : store.Ready world key)
    (hopen : Handle.openAt world.files key = .ok handle) (hsource : handle.source = some source)
    (hne : writes ≠ []) (hkeys : ∀ w ∈ writes, Store.key world.files w.path = .ok key) :
    ∃ store' world' id, store.writeAll world writes = (store', world', .ok ())
      ∧ world'.files = world.files
      ∧ store'.Serves world' key id { handle with staged := stage handle.staged writes } := by
  -- opening the archive first makes no difference to the first write, which opens it anyway
  obtain ⟨w, rest, rfl⟩ := List.exists_cons_of_ne_nil hne
  have hkey := hkeys w (List.mem_cons_self ..)
  obtain ⟨store', world', id, hhandle, hserves, hfiles⟩ := h.serves hkey hopen
  rw [← hfiles] at hkeys
  obtain ⟨world'', hwrites, hfiles', hserves'⟩ := hserves.writeAll_eq hsource hkeys
  refine ⟨store', world'', id, ?_, hfiles'.trans hfiles, hserves'⟩
  rw [← hwrites, writeAll, writeAll, write, write, hhandle,
    hserves.handle_eq (hkeys w (List.mem_cons_self ..))]

theorem Serves.read_eq (h : store.Serves world key id handle)
    (hkey : Store.key world.files path = .ok key) (entry : String) :
    (store.read world path entry).2.2 = handle.read world.files entry := by
  rw [Store.read, h.handle_eq hkey]
  dsimp only
  rw [World.readEntry, handle_of_getElem? h.opened]

theorem Ready.read_eq (h : store.Ready world key) (hkey : Store.key world.files path = .ok key)
    (hopen : Handle.openAt world.files key = .ok handle) (entry : String) :
    (store.read world path entry).2.2 = handle.read world.files entry := by
  obtain ⟨store', world', id, hhandle, hserves, hfiles⟩ := h.serves hkey hopen
  rw [Store.read, hhandle]
  dsimp only
  rw [World.readEntry, handle_of_getElem? hserves.opened, hfiles]

/-! ## Closing -/

theorem handle_closeHandle (world : World) (id i : HandleId) :
    (world.closeHandle id).1.handle i
      = if i = id then ((world.handle id).close world.files).1 else world.handle i := by
  rw [World.closeHandle, World.handle, Array.getD_eq_getD_getElem?]
  dsimp only
  rw [Array.getElem?_setIfInBounds]
  by_cases hi : id = i
  · rw [if_pos hi, if_pos hi.symm]
    split
    case isTrue => rfl
    case isFalse hbound =>
      -- a handle that was never opened stays so
      rw [World.handle, Array.getD_eq_getD_getElem?, Array.getElem?_eq_none (Nat.not_lt.1 hbound)]
      rfl
  · rw [if_neg hi, if_neg (Ne.symm hi), World.handle, Array.getD_eq_getD_getElem?]

/-- After the first handle was closed, the others are, and its failure comes before theirs. -/
theorem exists_closeCells_cons (world : World) (key : String) (id : HandleId) (rest : List Cell) :
    ∃ next : World, next.handles = (world.closeHandle id).1.handles
      ∧ next.files = (world.closeHandle id).1.files
      ∧ closeCells world (⟨key, some id⟩ :: rest) = ((closeCells next rest).1,
        match (world.closeHandle id).2 with
        | .ok () => (closeCells next rest).2
        | .error error => ⟨key, error⟩ :: (closeCells next rest).2) := by
  rw [closeCells]
  rcases world.closeHandle id with ⟨next, error | done⟩
  · exact ⟨next, rfl, rfl, rfl⟩
  · exact ⟨next.record .debug .archive s!"Closed archive {key}", rfl, rfl, rfl⟩

/-- Closing a handle with nothing staged succeeds and changes no file. -/
theorem closeCells_cons_of_isEmpty (h : (world.handle id).staged.isEmpty) (text : String)
    (rest : List Cell) :
    ∃ world', closeCells world (⟨text, some id⟩ :: rest) = closeCells world' rest
      ∧ world'.files = world.files ∧ (∀ i, i ≠ id → world'.handle i = world.handle i)
      ∧ (world'.handle id).staged.isEmpty := by
  obtain ⟨hfiles, hclean⟩ := Handle.close_of_isEmpty h world.files
  have hresult : (world.closeHandle id).2 = .ok () := congrArg Prod.snd hfiles
  have hclose : world.closeHandle id = ((world.closeHandle id).1, .ok ()) :=
    Prod.ext rfl hresult
  have hhandle := handle_closeHandle world id
  rw [closeCells, hclose]
  refine ⟨_, rfl, congrArg Prod.fst hfiles, fun i hi => ?_, ?_⟩
  · exact (hhandle i).trans (if_neg hi)
  · have hclosed := (hhandle id).trans (if_pos rfl)
    exact hclosed ▸ hclean

/-- Closing a handle with something staged flushes it. -/
theorem exists_flush_of_closeCells_cons {source : Source} {text : String} {rest : List Cell}
    {after : World} (hsource : (world.handle id).source = some source)
    (hstaged : (world.handle id).staged.isEmpty = false)
    (h : closeCells world (⟨text, some id⟩ :: rest) = (after, [])) :
    ∃ world', closeCells world' rest = (after, [])
      ∧ Handle.flush world.files source (world.handle id).staged (world.handle id).path
        = (world'.files, .ok ())
      ∧ (∀ i, i ≠ id → world'.handle i = world.handle i)
      ∧ (world'.handle id).staged.isEmpty := by
  have hhandle := handle_closeHandle world id
  have hclose := Handle.close_eq hsource hstaged world.files
  have hflush : Handle.flush world.files source (world.handle id).staged (world.handle id).path
      = ((world.closeHandle id).1.files, (world.closeHandle id).2) :=
    (congrArg Prod.snd hclose).symm
  rw [closeCells] at h
  cases hresult : world.closeHandle id with
  | mk world' result =>
    rw [hresult] at h hflush hhandle
    cases result with
    | error e => cases h
    | ok done =>
      refine ⟨_, h, hflush, fun i hi => (hhandle i).trans (if_neg hi), ?_⟩
      have hclosed := (hhandle id).trans (if_pos rfl)
      rw [hclose] at hclosed
      exact hclosed ▸ rfl

/-- What has nothing staged still has nothing staged after a handle was closed. -/
theorem isEmpty_of_kept {world' : World} {i : HandleId}
    (hkept : ∀ i, i ≠ id → world'.handle i = world.handle i)
    (hclean : (world'.handle id).staged.isEmpty) (h : i = id ∨ (world.handle i).staged.isEmpty) :
    (world'.handle i).staged.isEmpty := by
  by_cases hsame : i = id
  · rw [hsame]
    exact hclean
  · rw [hkept i hsame]
    exact h.resolve_left hsame

/-- Closing handles with nothing staged changes no file. -/
theorem closeCells_of_clean {cells : List Cell}
    (h : ∀ cell ∈ cells, ∀ i, cell.handle = some i → (world.handle i).staged.isEmpty) :
    (closeCells world cells).1.files = world.files := by
  induction cells generalizing world with
  | nil => rfl
  | cons cell rest ih =>
    obtain ⟨hcell, hrest⟩ := List.forall_mem_cons.1 h
    obtain ⟨text, handle⟩ := cell
    cases handle with
    | none => exact ih hrest
    | some id =>
      obtain ⟨world', hclose, hfiles, hkept, hclean⟩ :=
        closeCells_cons_of_isEmpty (hcell id rfl) text rest
      rw [hclose, ← hfiles]
      exact ih fun cell hcell i hi => isEmpty_of_kept hkept hclean (.inr (hrest cell hcell i hi))

/-- Closing handles flushes the only one that has something staged. -/
theorem exists_flush_of_closeCells {cells : List Cell} {source : Source} {after : World}
    (hhandle : world.handle id = handle) (hsource : handle.source = some source)
    (hstaged : handle.staged.isEmpty = false)
    (hothers : ∀ cell ∈ cells, ∀ i, cell.handle = some i →
      i = id ∨ (world.handle i).staged.isEmpty)
    (hmem : ∃ cell ∈ cells, cell.handle = some id) (h : closeCells world cells = (after, [])) :
    Handle.flush world.files source handle.staged handle.path = (after.files, .ok ()) := by
  induction cells generalizing world with
  | nil =>
    obtain ⟨cell, hcell, -⟩ := hmem
    contradiction
  | cons cell rest ih =>
    obtain ⟨hcell, hrest⟩ := List.forall_mem_cons.1 hothers
    obtain ⟨text, handle'⟩ := cell
    rw [List.exists_mem_cons_iff] at hmem
    cases handle' with
    | none =>
      rcases hmem with hnone | hmem
      · contradiction
      · exact ih hhandle hrest hmem h
    | some i =>
      by_cases hsame : i = id
      · -- the handle is flushed here, and the rest of the cells have nothing to flush
        subst hsame hhandle
        obtain ⟨world', hclose, hflush, hkept, hclean⟩ :=
          exists_flush_of_closeCells_cons hsource hstaged h
        have hfiles : (closeCells world' rest).1.files = world'.files :=
          closeCells_of_clean fun cell hcell j hj =>
            isEmpty_of_kept hkept hclean (hrest cell hcell j hj)
        rw [hclose] at hfiles
        rw [hflush, hfiles]
      · obtain ⟨world', hclose, hfiles, hkept, hclean⟩ :=
          closeCells_cons_of_isEmpty ((hcell i rfl).resolve_left hsame) text rest
        rw [hclose] at h
        rw [← hfiles]
        refine ih ((hkept id (Ne.symm hsame)).trans hhandle) ?_ ?_ h
        · intro cell hcell j hj
          exact (hrest cell hcell j hj).imp_right fun h => isEmpty_of_kept hkept hclean (.inr h)
        · rcases hmem with hhead | hmem
          · exact absurd (Option.some.inj hhead) hsame
          · exact hmem

/-- Closing a store with nothing staged changes no file. -/
theorem Ready.files_closeAll (h : store.Ready world key) :
    (store.closeAll world).2.1.files = world.files :=
  closeCells_of_clean fun cell hcell => h.clean cell (List.mem_mergeSort.1 hcell)

/-- Closing a store that serves an archive with staged writes flushes it. -/
theorem Serves.exists_flush {source : Source} {after : World} (h : store.Serves world key id handle)
    (hsource : handle.source = some source) (hstaged : handle.staged.isEmpty = false)
    {closed : Store} (hclose : store.closeAll world = (closed, after, [])) :
    Handle.flush world.files source handle.staged handle.path = (after.files, .ok ()) := by
  obtain ⟨cell, hfind, hcell⟩ := Option.bind_eq_some_iff.1 h.found
  have hcells : closeCells world store.ordered = (after, []) :=
    congrArg Prod.snd hclose
  apply exists_flush_of_closeCells (handle_of_getElem? h.opened) hsource hstaged ?_ ?_ hcells
  · intro cell hcell
    exact h.others cell (List.mem_mergeSort.1 hcell)
  · exact ⟨cell, List.mem_mergeSort.2 (List.mem_of_find?_eq_some hfind), hcell⟩

end Store

end Reline.Archive
