/-
  Reline.Proofs.Archive.Reordering

  Closing a store after the same writes in another order.

  An archive is opened once, by whichever use comes first, and its handle stages
  the writes to it, of which only the last one to each entry stays. No file
  changes before a handle is closed. So what is pending under each key in the end
  is determined by the last writes, and that determines what closing does.

  An archive is opened by the text of the first path that is used for its place, and
  a place may have texts that open it and texts that do not: `lib.jar/` leads nowhere
  if `lib.jar` is a file, but once this is open it is found by that path as well.
  Paths that lead somewhere have one text for each place. So only paths that lead
  nowhere have to agree with others about the text of a place.

  Main statement: `closesAlike_of_sameWrites`.
-/

import Reline.Proofs.Archive.Pending
import Reline.Proofs.Archive.Sharing
import Reline.Proofs.Archive.Visibility

namespace Reline.Archive

open FileSystem

variable {store₀ store store' : Store} {world₀ world world' : World} {id : HandleId}
  {key path : String} {texts : List String} {writes writes' : List Write} {uses uses' : List Use}
  {events : List Event}

/-! ## What is staged -/

namespace Handle

variable {handle : Handle}

/-- A handle after writes, which it takes unless it is closed. -/
def after (handle : Handle) (writes : List Write) : Handle :=
  match handle.source with
  | none => handle
  | some _ => { handle with staged := stage handle.staged writes }

theorem after_of_closed (h : handle.source = none) (writes : List Write) :
    handle.after writes = handle := by
  rw [after, h]

theorem after_of_open (h : handle.source ≠ none) (writes : List Write) :
    handle.after writes = { handle with staged := stage handle.staged writes } := by
  rw [after]
  cases hsource : handle.source with
  | none => exact absurd hsource h
  | some source => rfl

@[simp] theorem after_nil (handle : Handle) : handle.after [] = handle := by
  rw [after]
  split <;> rfl

@[simp] theorem source_after (handle : Handle) (writes : List Write) :
    (handle.after writes).source = handle.source := by
  rw [after]
  split <;> rfl

theorem after_concat (handle : Handle) (writes : List Write) (w : Write) :
    handle.after (writes ++ [w]) = (handle.after writes).after [w] := by
  by_cases h : handle.source = none
  · rw [after_of_closed h, after_of_closed h, after_of_closed h]
  · have hafter : (handle.after writes).source ≠ none := by rwa [source_after]
    rw [after_of_open hafter, after_of_open h, after_of_open h, stage_concat]
    rfl

end Handle

/-- A write through a handle is one that this handle takes. -/
theorem handle_writeEntry (world : World) (id : HandleId) (w : Write) (i : HandleId) :
    (world.writeEntry id w.entry w.bytes).1.handle i
      = if i = id then (world.handle i).after [w] else world.handle i := by
  rw [World.writeEntry, Handle.write]
  cases hsource : (world.handle id).source with
  | none =>
    dsimp only
    split
    case isTrue heq => rw [heq, Handle.after_of_closed hsource]
    case isFalse => rfl
  | some source =>
    have hbound : ¬ world.handles.size ≤ id := by
      intro hbound
      rw [World.handle_of_size_le hbound] at hsource
      contradiction
    dsimp only
    rw [handle_setIfInBounds world _ _ i (absurd · hbound)]
    split
    case isTrue heq =>
      rw [heq, Handle.after_of_open (by simp [hsource]), hsource]
      rfl
    case isFalse => rfl

/-! ## What uses write -/

/-- The path by which a use asks the store for an archive. -/
def Use.path? : Use → Option String
  | handle path | read path _ | write path _ _ => some path
  | _ => none

/-- The key of the archive that a use asks the store for. -/
def Use.key? (files : FileSystem) (use : Use) : Option String :=
  use.path?.bind fun path => (Store.key files path).toOption

/-- The write that a use makes if its archive can be opened. -/
def Use.write? (world : World) : Use → Option Write
  | write path entry bytes => (Store.key world.files path).toOption.map (⟨·, entry, bytes⟩)
  | writeHandle id entry bytes =>
    if (world.handle id).source.isSome then some ⟨(world.handle id).path, entry, bytes⟩ else none
  | _ => none

/-- The keys of the archives that uses ask the store for. -/
def keysOf (files : FileSystem) (uses : List Use) : List String :=
  uses.filterMap (Use.key? files)

/-- The writes that uses make if their archives can be opened. -/
def writesOf (world : World) (uses : List Use) : List Write :=
  uses.filterMap (Use.write? world)

/-- Whether keys of one place are one. -/
def Agree (keys : List String) : Prop :=
  ∀ a ∈ keys, ∀ b ∈ keys, Store.sameKey a b = true → a = b

/-- Whether uses close no handle and name only handles that were given before, and a path that leads
nowhere, if they use one for the place of another, has the same key. -/
structure Orderly (world : World) (uses : List Use) : Prop where
  closes : ∀ use ∈ uses, use.closes = false
  given : ∀ use ∈ uses, ∀ id, use.handle? = some id → id < world.handles.size
  strays : ∀ path ∈ uses.filterMap Use.path?, (world.files.canonical path).toOption = none →
    ∀ path' ∈ uses.filterMap Use.path?, ∀ key ∈ (Store.key world.files path).toOption,
      ∀ key' ∈ (Store.key world.files path').toOption, Store.sameKey key key' = true → key = key'

theorem Orderly.mono (h : Orderly world uses) (hsub : ∀ use ∈ uses', use ∈ uses) :
    Orderly world uses' := by
  have hpaths : ∀ path ∈ uses'.filterMap Use.path?, path ∈ uses.filterMap Use.path? := by
    intro path hpath
    obtain ⟨use, huse, hof⟩ := List.mem_filterMap.1 hpath
    exact List.mem_filterMap.2 ⟨use, hsub use huse, hof⟩
  exact ⟨fun use huse => h.closes use (hsub use huse), fun use huse => h.given use (hsub use huse),
    fun path hpath hstray path' hpath' =>
      h.strays path (hpaths path hpath) hstray path' (hpaths path' hpath')⟩

/-- The keys of a store's cells. -/
def Store.keys (store : Store) : List String := store.cells.map Cell.key

theorem Store.keys_register (store : Store) (key : String) (handle : Option HandleId) :
    (store.register key handle).keys
      = if (store.find? key).isSome then store.keys else store.keys ++ [key] := by
  rw [register]
  cases store.find? key with
  | none =>
    dsimp only
    rw [if_neg (by simp), keys, List.map_append]
    rfl
  | some found =>
    dsimp only
    rw [if_pos Option.isSome_some, keys, List.map_map]
    refine List.map_congr_left fun cell _ => ?_
    dsimp only [Function.comp_apply]
    split <;> rfl

/-- Two keys of one place in a store are one. -/
theorem Registered.key_eq (h : Registered store world) {key' : String} (hkey : key ∈ store.keys)
    (hkey' : key' ∈ store.keys) (hsame : Store.sameKey key key' = true) : key = key' := by
  obtain ⟨cell, hcell, rfl⟩ := List.mem_map.1 hkey
  obtain ⟨cell', hcell', rfl⟩ := List.mem_map.1 hkey'
  have hfound := h.find?_eq hcell hsame
  rw [h.find?_eq hcell' (Store.sameKey_iff.2 rfl)] at hfound
  rw [Option.some.inj hfound]

/-- Where the handle that is held for a place comes from: it was held at the start, or it was opened
since. -/
inductive Origin (store₀ : Store) (world₀ : World) (texts : List String) (key : String)
    (id : HandleId) : Handle → Prop where
  | held (held : store₀.held? key = some id) : Origin store₀ world₀ texts key id (world₀.handle id)
  | opened {text : String} {handle : Handle} (vacant : store₀.held? key = none)
    (fresh : world₀.handles.size ≤ id) (mem : text ∈ texts) (same : Store.sameKey text key = true)
    (opening : Handle.openAt world₀.files text = .ok handle) :
    Origin store₀ world₀ texts key id handle

/-- Whether an archive cannot be opened by the text that its place has. -/
def Refused (files : FileSystem) (texts : List String) (key : String) : Prop :=
  ∃ text ∈ texts, Store.sameKey text key = true ∧ ∃ e, Handle.openAt files text = .error e

/-- Whether a store and a world are what a start and writes lead to, with archives asked for by
texts. -/
structure Follows (store₀ : Store) (world₀ : World) (texts : List String) (writes : List Write)
    (store : Store) (world : World) : Prop where
  files_eq : world.files = world₀.files
  size_le : world₀.handles.size ≤ world.handles.size
  registered : Registered store world
  kept : ∀ key id, store₀.held? key = some id → store.held? key = some id
  keys : ∃ more, (∀ key ∈ more, key ∈ texts) ∧ store.keys = store₀.keys ++ more
  origin : ∀ key id, store.held? key = some id →
    ∃ first, Origin store₀ world₀ texts key id first
      ∧ world.handle id = first.after (writesTo key writes)
  refused : ∀ w ∈ writes, store.held? w.path = none → Refused world₀.files texts w.path

/-- The writes to an archive that was opened only now are none: it would have been opened before. -/
theorem Follows.writesTo_eq_nil (h : Follows store₀ world₀ texts writes store world)
    (hagree : Agree texts) (hkey : key ∈ texts)
    (hvacant : store.held? key = none) {handle : Handle}
    (hopen : Handle.openAt world₀.files key = .ok handle) : writesTo key writes = [] := by
  rw [writesTo, List.filter_eq_nil_iff]
  intro w hw hsame
  rw [← store.held?_congr hsame] at hvacant
  obtain ⟨text, htext, hplace, e, herror⟩ := h.refused w hw hvacant
  have hnames := (Store.sameKey_iff.1 hplace).trans (Store.sameKey_iff.1 hsame)
  cases hagree text htext key hkey (Store.sameKey_iff.2 hnames)
  rw [hopen] at herror
  contradiction

theorem Follows.vacant_start (h : Follows store₀ world₀ texts writes store world)
    (hvacant : store.held? key = none) : store₀.held? key = none := by
  by_contra hheld
  obtain ⟨old, hold⟩ := Option.ne_none_iff_exists'.1 hheld
  cases hvacant.symm.trans (h.kept _ _ hold)

theorem Follows.keys_register (h : Follows store₀ world₀ texts writes store world)
    (hkey : key ∈ texts) (handle : Option HandleId) :
    ∃ more, (∀ key ∈ more, key ∈ texts)
      ∧ (store.register key handle).keys = store₀.keys ++ more := by
  obtain ⟨more, hmore, heq⟩ := h.keys
  rw [store.keys_register, heq]
  split
  · exact ⟨more, hmore, rfl⟩
  · exact ⟨more ++ [key], List.forall_mem_append.2 ⟨hmore, List.forall_mem_singleton.2 hkey⟩,
      List.append_assoc ..⟩

theorem Follows.refused_register (h : Follows store₀ world₀ texts writes store world)
    (vacant : store.held? key = none) (handle : Option HandleId) :
    ∀ w ∈ writes, (store.register key handle).held? w.path = none →
      Refused world₀.files texts w.path := by
  intro w hw hnone
  rw [store.held?_register] at hnone
  split at hnone
  case isTrue hsame => exact h.refused w hw (store.held?_congr hsame ▸ vacant)
  case isFalse => exact h.refused w hw hnone

/-- A handle that is opened now has taken no writes yet, and the other ones are as they were. -/
theorem Follows.origin_opened (h : Follows store₀ world₀ texts writes store world)
    (hagree : Agree texts) (hmem : key ∈ texts) (vacant : store.held? key = none)
    {handle : Handle} (opening : Handle.openAt world₀.files key = .ok handle)
    (log : List Log.Message) {key' : String}
    (hheld : (store.register key (some world.handles.size)).held? key' = some id) :
    ∃ first, Origin store₀ world₀ texts key' id first
      ∧ (⟨world.files, world.handles.push handle, log⟩ : World).handle id
        = first.after (writesTo key' writes) := by
  rw [store.held?_register] at hheld
  rw [World.handle_push]
  split at hheld
  case isTrue hsame =>
    cases hheld
    have hvacant := h.vacant_start (store.held?_congr hsame ▸ vacant)
    refine ⟨handle, .opened hvacant h.size_le hmem hsame opening, ?_⟩
    rw [if_pos rfl, ← writesTo_congr hsame, h.writesTo_eq_nil hagree hmem vacant opening,
      Handle.after_nil]
  case isFalse =>
    rw [if_neg (Nat.ne_of_lt (h.registered.of_held hheld).1)]
    exact h.origin key' id hheld

/-- Asking for a handle opens an archive at most. -/
theorem Follows.asks (h : Follows store₀ world₀ texts writes store world)
    (hagree : Agree texts)
    (htext : ∀ key, Store.key world₀.files path = .ok key → key ∈ texts)
    {result : Except Error HandleId} (hasks : store.Asks world path store' world' result) :
    Follows store₀ world₀ texts writes store' world' := by
  have hregistered := h.registered.of_asks hasks
  have hkept (key : String) (id : HandleId) (hheld : store₀.held? key = some id) :
      store'.held? key = some id := hasks.held_of_held (h.kept key id hheld)
  cases hasks with
  | invalid keyed => exact h
  | held keyed held => exact h
  | @refused key e keyed vacant refusal =>
    rw [h.files_eq] at keyed
    refine ⟨h.files_eq, h.size_le, hregistered, hkept, h.keys_register (htext key keyed) none,
      fun key' id hheld => ?_, h.refused_register vacant none⟩
    rw [store.held?_register] at hheld
    split at hheld
    case isTrue => contradiction
    case isFalse => exact h.origin key' id hheld
  | @opened key handle log keyed vacant opening =>
    rw [h.files_eq] at keyed opening
    have hmem := htext key keyed
    refine ⟨h.files_eq, ?_, hregistered, hkept, h.keys_register hmem _,
      fun key' id => h.origin_opened hagree hmem vacant opening log, h.refused_register vacant _⟩
    rw [Array.size_push]
    exact Nat.le_succ_of_le h.size_le

/-- One more write, which the handle of its archive takes, if there is one. -/
theorem Follows.concat (h : Follows store₀ world₀ texts writes store world) {w : Write}
    (hfiles : world'.files = world.files) (hremains : Remains world world')
    (hhandle : ∀ i, world'.handle i
      = if store.held? w.path = some i then (world.handle i).after [w] else world.handle i)
    (hrefused : store.held? w.path = none → Refused world₀.files texts w.path) :
    Follows store₀ world₀ texts (writes ++ [w]) store world' where
  files_eq := hfiles.trans h.files_eq
  size_le := by
    rw [hremains.size]
    exact h.size_le
  registered := h.registered.of_remains hremains
  kept := h.kept
  keys := h.keys
  origin key id hheld := by
    obtain ⟨first, horigin, heq⟩ := h.origin key id hheld
    refine ⟨first, horigin, ?_⟩
    rw [hhandle, heq, writesTo_concat]
    by_cases hsame : Store.sameKey w.path key = true
    · rw [if_pos hsame, store.held?_congr hsame, if_pos hheld, Handle.after_concat]
    · rw [if_neg hsame, if_neg]
      intro hheld'
      exact hsame (h.registered.sameKey_of_held hheld' hheld)
  refused w' hw' hnone := by
    rcases List.mem_append.1 hw' with hold | hnew
    · exact h.refused w' hold hnone
    · cases List.mem_singleton.1 hnew
      exact hrefused hnone

/-- A handle that is held takes a write to its archive. -/
theorem Follows.writeEntry (h : Follows store₀ world₀ texts writes store world) {w : Write}
    (hheld : store.held? w.path = some id) :
    Follows store₀ world₀ texts (writes ++ [w]) store
      (world.writeEntry id w.entry w.bytes).1 := by
  refine h.concat (files_writeEntry ..) (stays_writeEntry ..).remains (fun i => ?_) fun hnone => ?_
  · rw [handle_writeEntry]
    exact if_congr (by rw [hheld, Option.some.injEq, eq_comm]) rfl rfl
  · rw [hheld] at hnone
    contradiction

/-- A handle that was closed at the start stays so. -/
theorem Follows.closed (h : Follows store₀ world₀ texts writes store world)
    (hid : id < world₀.handles.size) (hclosed : (world₀.handle id).source = none) :
    (world.handle id).source = none := by
  by_cases hheld : ∀ cell ∈ store.cells, cell.handle ≠ some id
  · exact h.registered.closed id hheld
  · push Not at hheld
    obtain ⟨cell, hcell, hcellId⟩ := hheld
    obtain ⟨first, horigin, heq⟩ := h.origin _ _ (h.registered.held_of_mem hcell hcellId)
    rw [heq, Handle.source_after]
    cases horigin with
    | held held => exact hclosed
    | opened vacant fresh mem same opening => exact absurd hid (Nat.not_lt.2 fresh)

/-- A handle that was open at the start is held. -/
theorem Follows.held_of_open (h : Follows store₀ world₀ texts writes store world)
    (hstart : Registered store₀ world₀) (hopen : (world₀.handle id).source ≠ none) :
    store.held? (world₀.handle id).path = some id := by
  obtain ⟨cell, hcell, hid⟩ : ∃ cell ∈ store₀.cells, cell.handle = some id := by
    by_contra hnone
    push Not at hnone
    exact hopen (hstart.closed id hnone)
  have hheld := hstart.held_of_mem hcell hid
  rw [← store₀.held?_congr (hstart.known cell hcell id hid).2] at hheld
  exact h.kept _ _ hheld

/-- A write by a path opens the archive and goes to its handle, unless it cannot be opened. -/
theorem Follows.write (h : Follows store₀ world₀ texts writes store world) (hagree : Agree texts)
    (htext : ∀ key, Store.key world₀.files path = .ok key → key ∈ texts) (entry : String)
    (bytes : Bytes) :
    Follows store₀ world₀ texts (writes ++ ((Use.write path entry bytes).write? world₀).toList)
      ((Use.write path entry bytes).apply store world).1
      ((Use.write path entry bytes).apply store world).2 := by
  have hasks := store.asks world path
  have hfollows := h.asks hagree htext hasks
  rw [Use.apply, Store.write, Use.write?]
  generalize store.handle world path = answer at hasks hfollows ⊢
  obtain ⟨store', world', result⟩ := answer
  dsimp only at hasks hfollows
  -- a write that finds no handle is lost, whenever it comes
  cases result with
  | ok id =>
    obtain ⟨key, hkey, hheld⟩ := hasks.held_of_ok
    rw [h.files_eq] at hkey
    rw [hkey]
    exact hfollows.writeEntry (w := ⟨key, entry, bytes⟩) hheld
  | error e =>
    cases hasks with
    | invalid keyed =>
      rw [h.files_eq] at keyed
      rw [keyed]
      exact (List.append_nil writes).symm ▸ hfollows
    | @refused key e keyed vacant refusal =>
      rw [h.files_eq] at keyed refusal
      have hnone : (store.register key none).held? key = none := by
        rw [store.held?_register, if_pos (Store.sameKey_iff.2 rfl)]
      rw [keyed]
      refine hfollows.concat (w := ⟨key, entry, bytes⟩) rfl (.refl _) (fun i => ?_) fun _ =>
        ⟨key, htext key keyed, Store.sameKey_iff.2 rfl, e, refusal⟩
      rw [if_neg (by simp [hnone])]

/-- A write through a handle goes to that handle, unless it is closed. -/
theorem Follows.writeHandle (h : Follows store₀ world₀ texts writes store world)
    (hstart : Registered store₀ world₀) (hgiven : id < world₀.handles.size) (entry : String)
    (bytes : Bytes) :
    Follows store₀ world₀ texts (writes ++ ((Use.writeHandle id entry bytes).write? world₀).toList)
      ((Use.writeHandle id entry bytes).apply store world).1
      ((Use.writeHandle id entry bytes).apply store world).2 := by
  rw [Use.apply, Use.write?]
  by_cases hclosed : (world₀.handle id).source = none
  · have hnow := h.closed hgiven hclosed
    rw [if_neg (by simp [hclosed]), World.writeEntry, Handle.write, hnow]
    exact (List.append_nil writes).symm ▸ h
  · rw [if_pos (Option.isSome_iff_ne_none.2 hclosed)]
    exact h.writeEntry (w := ⟨_, entry, bytes⟩) (h.held_of_open hstart hclosed)

/-- A use that closes nothing adds its write. -/
theorem Follows.apply (h : Follows store₀ world₀ texts writes store world)
    (hstart : Registered store₀ world₀) (hagree : Agree texts) (use : Use)
    (hcloses : use.closes = false)
    (hgiven : ∀ id, use.handle? = some id → id < world₀.handles.size)
    (htext : ∀ key, use.key? world₀.files = some key → key ∈ texts) :
    Follows store₀ world₀ texts (writes ++ (use.write? world₀).toList) (use.apply store world).1
      (use.apply store world).2 := by
  have hkeyed {path : String}
      (hpath : use.key? world₀.files = (Store.key world₀.files path).toOption)
      (key : String) (hkey : Store.key world₀.files path = .ok key) : key ∈ texts := by
    rw [hkey] at hpath
    exact htext key hpath
  cases use with
  | handle path =>
    exact (List.append_nil writes).symm ▸ h.asks hagree (hkeyed rfl) (store.asks world path)
  | read path entry =>
    have hwrite : (Use.read path entry).write? world₀ = none := rfl
    rw [hwrite, Option.toList_none, List.append_nil, Use.apply_read]
    exact h.asks hagree (hkeyed rfl) (store.asks world path)
  | write path entry bytes => exact h.write hagree (hkeyed rfl) entry bytes
  | openHandles => exact (List.append_nil writes).symm ▸ h
  | readHandle id entry => exact (List.append_nil writes).symm ▸ h
  | writeHandle id entry bytes => exact h.writeHandle hstart (hgiven id rfl) entry bytes
  | closeHandle id => contradiction
  | closeAll => contradiction
  | drop => contradiction

/-- Uses that close nothing add their writes. -/
theorem Follows.run (h : Follows store₀ world₀ texts writes store world)
    (hstart : Registered store₀ world₀) (hagree : Agree texts) (horderly : Orderly world₀ uses)
    (htexts : ∀ key ∈ keysOf world₀.files uses, key ∈ texts) :
    Follows store₀ world₀ texts (writes ++ writesOf world₀ uses) (Archive.run store world uses).1
      (Archive.run store world uses).2 := by
  induction uses generalizing writes store world with
  | nil => exact (List.append_nil writes).symm ▸ h
  | cons use uses ih =>
    have huse := h.apply hstart hagree use (horderly.closes use (List.mem_cons_self ..))
      (horderly.given use (List.mem_cons_self ..)) fun key hkey =>
        htexts key (List.mem_filterMap.2 ⟨use, List.mem_cons_self .., hkey⟩)
    have hrest := ih huse (horderly.mono fun _ hmem => List.mem_cons_of_mem _ hmem)
      fun key hkey => by
        obtain ⟨other, hother, hof⟩ := List.mem_filterMap.1 hkey
        exact htexts key (List.mem_filterMap.2 ⟨other, List.mem_cons_of_mem _ hother, hof⟩)
    rw [List.append_assoc] at hrest
    have hwrites : writesOf world₀ (use :: uses)
        = (use.write? world₀).toList ++ writesOf world₀ uses := by
      rw [writesOf, List.filterMap_cons]
      cases use.write? world₀ <;> rfl
    rw [hwrites]
    exact hrest

/-! ## Two runs from one start -/

/-- The key of a place is one in all runs from one start. -/
theorem Follows.key_eq (h : Follows store₀ world₀ texts writes store world)
    (h' : Follows store₀ world₀ texts writes' store' world') (hagree : Agree texts) {key' : String}
    (hkey : key ∈ store.keys) (hkey' : key' ∈ store'.keys)
    (hsame : Store.sameKey key key' = true) : key = key' := by
  obtain ⟨more, hmore, hkeys⟩ := h.keys
  obtain ⟨more', hmore', hkeys'⟩ := h'.keys
  by_cases hold : key ∈ store₀.keys
  · exact h'.registered.key_eq (hkeys' ▸ List.mem_append_left _ hold) hkey' hsame
  · by_cases hold' : key' ∈ store₀.keys
    · exact h.registered.key_eq hkey (hkeys ▸ List.mem_append_left _ hold') hsame
    · -- neither key was there at the start
      rw [hkeys, List.mem_append, or_iff_right hold] at hkey
      rw [hkeys', List.mem_append, or_iff_right hold'] at hkey'
      exact hagree key (hmore key hkey) key' (hmore' key' hkey') hsame

end Reline.Archive
