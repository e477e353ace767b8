/-
  Reline.Proofs.Archive.Visibility

  What reads give in runs of a store that close nothing.

  All handles of an archive are one, whichever paths were used to ask for it, and
  what it has staged are the writes of the run that went to its archive, in their
  order. So a read gives the last write to its entry of its archive, through
  whatever path or handle that was made, and what the file contains if there was
  none. Writes to other entries and other archives make no difference.

  Main statement: `read_run`.
-/

import Reline.Proofs.Archive.Durability
import Reline.Proofs.Archive.Run

namespace Reline.Archive

open FileSystem

/-! ## The writes of a run -/

/-- The write that a use made, if it succeeded, with the path of the archive's handle. -/
def Use.written (store : Store) (world : World) : Use → List Write
  | write path entry bytes =>
    match store.write world path entry bytes, Store.key world.files path with
    | (_, _, .ok ()), .ok key => [⟨key, entry, bytes⟩]
    | _, _ => []
  | writeHandle id entry bytes =>
    match world.writeEntry id entry bytes with
    | (_, .ok ()) => [⟨(world.handle id).path, entry, bytes⟩]
    | (_, .error _) => []
  | _ => []

/-- The writes of uses in turn that succeeded. -/
def written (store : Store) (world : World) : List Use → List Write
  | [] => []
  | use :: uses =>
    use.written store world ++ written (use.apply store world).1 (use.apply store world).2 uses

/-- The writes that went to the archive at a key. -/
def writesTo (key : String) (writes : List Write) : List Write :=
  writes.filter fun w => Store.sameKey w.path key

variable {files : FileSystem} {writes : List Write} {store : Store} {world : World}
  {id : HandleId} {handle : Handle} {key path : String}

theorem writesTo_congr {key' : String} (h : Store.sameKey key key' = true) (writes : List Write) :
    writesTo key writes = writesTo key' writes := by
  have hsame : (fun w : Write => Store.sameKey w.path key)
      = fun w => Store.sameKey w.path key' := by
    funext w
    rw [Store.sameKey, Store.sameKey, Store.sameKey_iff.1 h]
  rw [writesTo, writesTo, hsame]

theorem writesTo_concat (key : String) (writes : List Write) (w : Write) :
    writesTo key (writes ++ [w])
      = if Store.sameKey w.path key then writesTo key writes ++ [w] else writesTo key writes := by
  rw [writesTo, writesTo, List.filter_append, List.filter_cons, List.filter_nil]
  split
  · rfl
  · rw [List.append_nil]

/-! ## What a run holds -/

/-- Whether a handle is what a store finds under its path, was opened on the files, and has staged
the writes to its archive. -/
structure Holds (files : FileSystem) (writes : List Write) (store : Store) (id : HandleId)
    (handle : Handle) : Prop where
  absolute : Path.isAbsolute handle.path = true
  found : (store.find? handle.path).bind Cell.handle = some id
  opened : ∃ source, Handle.openAt files handle.path = .ok ⟨handle.path, some source, ∅⟩
    ∧ handle = ⟨handle.path, some source, stage ∅ (writesTo handle.path writes)⟩

/-- Whether a store and a world are what writes lead to from files with nothing open. -/
structure Mirrors (files : FileSystem) (writes : List Write) (store : Store) (world : World) :
    Prop where
  files_eq : world.files = files
  holds : ∀ id handle, world.handles[id]? = some handle → Holds files writes store id handle
  found : ∀ key id, (store.find? key).bind Cell.handle = some id →
    ∃ handle, world.handles[id]? = some handle ∧ Store.sameKey handle.path key = true
  written : ∀ w ∈ writes, (store.find? w.path).bind Cell.handle ≠ none

theorem mirrors_empty (files : FileSystem) : Mirrors files [] .empty (.ofFiles files) where
  files_eq := rfl
  holds _ _ hid := nomatch hid
  found _ _ hfound := nomatch hfound
  written _ hw := absurd hw List.not_mem_nil

/-- Only what a store finds matters. -/
theorem Mirrors.of_find?_eq {store' : Store} (h : Mirrors files writes store world)
    (hfind : ∀ key, (store'.find? key).bind Cell.handle = (store.find? key).bind Cell.handle) :
    Mirrors files writes store' world where
  files_eq := h.files_eq
  holds id handle hid := by
    obtain ⟨habsolute, hfound, hopened⟩ := h.holds id handle hid
    exact ⟨habsolute, (hfind _).trans hfound, hopened⟩
  found key id hfound := h.found key id ((hfind key).symm.trans hfound)
  written w hw := by
    rw [hfind]
    exact h.written w hw

/-- No write went to an archive that has no handle. -/
theorem Mirrors.writesTo_eq_nil (h : Mirrors files writes store world)
    (hnone : (store.find? key).bind Cell.handle = none) : writesTo key writes = [] := by
  rw [writesTo, List.filter_eq_nil_iff]
  intro w hw hsame
  rw [← store.find?_congr hsame] at hnone
  exact h.written w hw hnone

/-- An archive that has no handle is opened, with nothing staged. -/
theorem Mirrors.opens (h : Mirrors files writes store world)
    (habsolute : Path.isAbsolute key = true)
    (hnone : (store.find? key).bind Cell.handle = none)
    (hopen : Handle.openAt files key = .ok handle) (log : List Log.Message) :
    Mirrors files writes (store.register key (some world.handles.size))
      ⟨world.files, world.handles.push handle, log⟩ := by
  obtain ⟨file, directory, -, -, -, rfl⟩ := Handle.openAt_eq_ok_iff.1 hopen
  -- no cell of the same place has a handle
  have hother {key' : String} (hfound : (store.find? key').bind Cell.handle ≠ none) :
      ¬ Store.sameKey key key' = true := by
    intro hsame
    rw [← store.find?_congr hsame] at hfound
    exact hfound hnone
  refine ⟨h.files_eq, fun id handle hid => ?_, fun key' id hfound => ?_, fun w hw => ?_⟩
  · rw [Array.getElem?_push] at hid
    split at hid
    case isTrue hnew =>
      cases hid
      refine ⟨habsolute, ?_, _, hopen, ?_⟩
      · rw [Store.bind_find?_register, if_pos (Store.sameKey_iff.2 rfl), hnew]
      · rw [h.writesTo_eq_nil hnone]
        rfl
    case isFalse =>
      obtain ⟨habsolute', hfound, hopened⟩ := h.holds id handle hid
      refine ⟨habsolute', ?_, hopened⟩
      rw [Store.bind_find?_register, if_neg (hother (hfound ▸ Option.some_ne_none _)), hfound]
  · rw [Store.bind_find?_register] at hfound
    split at hfound
    case isTrue hsame =>
      cases hfound
      exact ⟨_, Array.getElem?_push_size, hsame⟩
    case isFalse =>
      obtain ⟨handle, hid, hsame⟩ := h.found key' id hfound
      obtain ⟨hbound, -⟩ := Array.getElem?_eq_some_iff.1 hid
      exact ⟨handle, (Array.getElem?_push_lt hbound).trans (Array.getElem?_eq_getElem hbound ▸ hid),
        hsame⟩
  · rw [Store.bind_find?_register, if_neg (hother (h.written w hw))]
    exact h.written w hw

/-- Asking for a handle keeps what a run holds, and gives the handle of the archive. -/
theorem Mirrors.getHandle (h : Mirrors files writes store world) (path : String) :
    Mirrors files writes (store.handle world path).1 (store.handle world path).2.1
      ∧ ∀ id, (store.handle world path).2.2 = .ok id → ∃ key handle,
        Store.key files path = .ok key
          ∧ (store.handle world path).2.1.handles[id]? = some handle
          ∧ Store.sameKey handle.path key = true := by
  rw [Store.handle, h.files_eq]
  cases hkey : Store.key files path with
  | error e => exact ⟨h, fun _ hid => by cases hid⟩
  | ok key =>
    dsimp only
    cases hfound : (store.find? key).bind Cell.handle with
    | some id =>
      refine ⟨h, fun id' hid' => ?_⟩
      cases hid'
      obtain ⟨handle, hid, hsame⟩ := h.found key id hfound
      exact ⟨key, handle, rfl, hid, hsame⟩
    | none =>
      dsimp only
      rw [World.openArchive, h.files_eq]
      cases hopen : Handle.openAt files key with
      | error e =>
        -- the archive is registered without a handle, as good as not at all
        refine ⟨h.of_find?_eq fun key' => ?_, fun _ hid => by cases hid⟩
        rw [Store.bind_find?_register]
        split
        case isTrue hsame => rw [← store.find?_congr hsame, hfound]
        case isFalse => rfl
      | ok handle =>
        have habsolute := Store.isAbsolute_key hkey
        refine ⟨h.opens habsolute hfound hopen _, fun id hid => ?_⟩
        cases hid
        obtain ⟨file, directory, -, -, -, rfl⟩ := Handle.openAt_eq_ok_iff.1 hopen
        exact ⟨key, _, rfl, Array.getElem?_push_size, Store.sameKey_iff.2 rfl⟩

/-- A write through a handle succeeds, and is one more write to its archive. -/
theorem Mirrors.writeEntry (h : Mirrors files writes store world)
    (hid : world.handles[id]? = some handle) {w : Write}
    (hw : Store.sameKey w.path handle.path = true) :
    ∃ world', world.writeEntry id w.entry w.bytes = (world', .ok ())
      ∧ Mirrors files (writes ++ [w]) store world' := by
  obtain ⟨habsolute, hfound, source, hopen, hhandle⟩ := h.holds id handle hid
  obtain ⟨hbound, -⟩ := Array.getElem?_eq_some_iff.1 hid
  have hsource : handle.source = some source := by rw [hhandle]
  rw [World.writeEntry, Store.handle_of_getElem? hid, Handle.write, hsource]
  refine ⟨_, rfl, h.files_eq, fun id' handle' hid' => ?_, fun key id' hfound' => ?_,
    fun w' hw' => ?_⟩
  · rw [Array.getElem?_setIfInBounds] at hid'
    split at hid'
    case isTrue heq =>
      subst heq
      cases hid'
      refine ⟨habsolute, hfound, source, hopen, ?_⟩
      rw [writesTo_concat, if_pos hw, stage_concat]
      rw [hhandle]
    case isFalse hne =>
      obtain ⟨habsolute', hfound', hopened'⟩ := h.holds id' handle' hid'
      -- a handle with another number is one of another archive
      have hother : ¬ Store.sameKey w.path handle'.path = true := by
        intro hsame
        have hpaths : Store.sameKey handle.path handle'.path = true :=
          Store.sameKey_iff.2 ((Store.sameKey_iff.1 hw).symm.trans (Store.sameKey_iff.1 hsame))
        rw [store.find?_congr hpaths, hfound'] at hfound
        exact hne (Option.some.inj hfound).symm
      refine ⟨habsolute', hfound', ?_⟩
      rw [writesTo_concat, if_neg hother]
      exact hopened'
  · obtain ⟨handle', hid', hsame⟩ := h.found key id' hfound'
    by_cases heq : id = id'
    · subst heq
      rw [hid] at hid'
      cases hid'
      exact ⟨_, Array.getElem?_setIfInBounds_self_of_lt hbound, hsame⟩
    · exact ⟨handle', (Array.getElem?_setIfInBounds_ne heq).trans hid', hsame⟩
  · rcases List.mem_append.1 hw' with hold | hnew
    · exact h.written w' hold
    · rw [List.mem_singleton.1 hnew, store.find?_congr hw, hfound]
      exact Option.some_ne_none _

/-! ## Runs -/

/-- A use that closes nothing adds its write. -/
theorem Mirrors.apply (h : Mirrors files writes store world) {use : Use}
    (hcloses : use.closes = false) :
    Mirrors files (writes ++ use.written store world) (use.apply store world).1
      (use.apply store world).2 := by
  cases use with
  | handle path => exact (List.append_nil writes).symm ▸ (h.getHandle path).1
  | read path entry =>
    have hwritten : (Use.read path entry).written store world = [] := rfl
    rw [Use.apply_read, hwritten, List.append_nil]
    exact (h.getHandle path).1
  | write path entry bytes =>
    obtain ⟨hhandle, hgiven⟩ := h.getHandle path
    rw [Use.apply, Store.write, Use.written, Store.write, h.files_eq]
    generalize store.handle world path = result at hhandle hgiven ⊢
    obtain ⟨store', world', result⟩ := result
    cases result with
    | error e =>
      rw [List.append_nil]
      exact hhandle
    | ok id =>
      obtain ⟨key, handle, hkey, hid, hsame⟩ := hgiven id rfl
      have hsame' : Store.sameKey key handle.path = true :=
        Store.sameKey_iff.2 (Store.sameKey_iff.1 hsame).symm
      obtain ⟨world'', hwrite, hmirrors⟩ :=
        hhandle.writeEntry (w := ⟨key, entry, bytes⟩) hid hsame'
      dsimp only at hwrite ⊢
      rw [hwrite, hkey]
      exact hmirrors
  | openHandles => exact (List.append_nil writes).symm ▸ h
  | readHandle id entry => exact (List.append_nil writes).symm ▸ h
  | writeHandle id entry bytes =>
    rw [Use.apply, Use.written]
    cases hid : world.handles[id]? with
    | none =>
      -- a handle that was never opened takes no write
      have hclosed : world.handle id = World.noHandle := by
        rw [World.handle, Array.getD_eq_getD_getElem?, hid, Option.getD_none]
      rw [World.writeEntry, hclosed]
      dsimp only [World.noHandle, Handle.write]
      rw [List.append_nil]
      exact h
    | some handle =>
      obtain ⟨world', hwrite, hmirrors⟩ :=
        h.writeEntry (w := ⟨handle.path, entry, bytes⟩) hid (Store.sameKey_iff.2 rfl)
      rw [hwrite, Store.handle_of_getElem? hid]
      exact hmirrors
  | closeHandle id => contradiction
  | closeAll => contradiction
  | drop => contradiction

/-- Uses that close nothing add their writes. -/
theorem Mirrors.run (h : Mirrors files writes store world) {uses : List Use}
    (hcloses : ∀ use ∈ uses, use.closes = false) :
    Mirrors files (writes ++ Archive.written store world uses) (Archive.run store world uses).1
      (Archive.run store world uses).2 := by
  induction uses generalizing writes store world with
  | nil => exact (List.append_nil writes).symm ▸ h
  | cons use uses ih =>
    obtain ⟨huse, huses⟩ := List.forall_mem_cons.1 hcloses
    have hrest := ih (h.apply huse) huses
    rw [List.append_assoc] at hrest
    exact hrest

/-! ## Reading -/

variable {location : Location} {source : Source}

/-- Whatever path from the root with the names of its place opens an archive, it is the same. -/
theorem Archived.source_eq (h : Archived files location source)
    (habsolute : Path.isAbsolute path = true)
    (hsame : Store.sameKey path (pathOf location) = true) {source' : Source}
    (hopen : Handle.openAt files path = .ok ⟨path, some source', ∅⟩) : source' = source := by
  obtain ⟨hplace, hnode⟩ := node?_of_inspect (isAbsolute_pathOf location) h.place
  obtain ⟨file, directory, hfile, -, hread, heq⟩ := Handle.openAt_eq_ok_iff.1 hopen
  obtain ⟨file', directory', hfile', -, hread', heq'⟩ := Handle.openAt_eq_ok_iff.1 h.opens
  -- both paths lead to one file
  have hat : file = source.file := by
    obtain ⟨l, hinspect⟩ := openFile_eq_ok_some_iff.1 hfile
    obtain ⟨slash, hresolve⟩ := inspect_eq_ok_iff.1 hinspect
    obtain ⟨-, -, -, hleads⟩ := resolve_eq_ok_iff.1 hresolve
    rw [if_pos habsolute] at hleads
    have hnames : Path.names path = location :=
      (Store.sameKey_iff.1 hsame).trans (names_pathOf hplace.ne_nil hplace.isName)
    exact (hleads.eq_of_names hplace hnode hnames).2
  cases heq
  cases heq'
  cases hat
  cases hread.symm.trans hread'
  rfl

/-- What a read of an entry has to give after writes to an archive: the last one to the entry, and
else what the archive contains. The path only stands in errors. -/
def visible (files : FileSystem) (source : Source) (writes : List Write) (path entry : String) :
    Except Error Bytes :=
  match lastWrite writes entry with
  | some bytes => .ok bytes
  | none => Handle.answer path entry (contained files source entry)

theorem toOption_visible (files : FileSystem) (source : Source) (writes : List Write)
    (path path' entry : String) :
    (visible files source writes path entry).toOption
      = (visible files source writes path' entry).toOption := by
  rw [visible, visible]
  cases lastWrite writes entry with
  | some bytes => rfl
  | none =>
    dsimp only
    cases contained files source entry with
    | none => rfl
    | some content => cases content <;> rfl

theorem lastWrite_append {more : List Write} {entry : String}
    (h : ∀ w ∈ more, normalizeEntry w.entry ≠ normalizeEntry entry) (writes : List Write) :
    lastWrite (writes ++ more) entry = lastWrite writes entry := by
  have hnone : more.reverse.find? (fun w => normalizeEntry w.entry = normalizeEntry entry)
      = none := by
    rw [List.find?_eq_none]
    intro w hw
    simpa using h w (List.mem_reverse.1 hw)
  rw [lastWrite, lastWrite, List.reverse_append, List.find?_append, hnone, Option.none_or]

/-- Writes to other entries or other archives are not seen. -/
theorem visible_append {more : List Write} {path entry : String}
    (h : ∀ w ∈ more, Store.sameKey w.path key = true →
      normalizeEntry w.entry ≠ normalizeEntry entry) (writes : List Write) :
    visible files source (writesTo key (writes ++ more)) path entry
      = visible files source (writesTo key writes) path entry := by
  have hmore : ∀ w ∈ writesTo key more, normalizeEntry w.entry ≠ normalizeEntry entry := by
    intro w hw
    obtain ⟨hmem, hsame⟩ := List.mem_filter.1 hw
    exact h w hmem hsame
  have happend : writesTo key (writes ++ more) = writesTo key writes ++ writesTo key more := by
    rw [writesTo, writesTo, writesTo, List.filter_append]
  rw [visible, visible, happend, lastWrite_append hmore]

/-- A read through a handle gives what the writes to its archive have made visible. -/
theorem Mirrors.readEntry (h : Mirrors files writes store world)
    (harchived : Archived files location source) (hid : world.handles[id]? = some handle)
    (hsame : Store.sameKey handle.path (pathOf location) = true) (entry : String) :
    world.readEntry id entry
      = visible files source (writesTo (pathOf location) writes) handle.path entry := by
  obtain ⟨habsolute, -, source', hopen, hhandle⟩ := h.holds id handle hid
  have hsource := harchived.source_eq habsolute hsame hopen
  subst hsource
  have hread : handle.source = some source' := by rw [hhandle]
  have hstaged : handle.staged = stage ∅ (writesTo (pathOf location) writes) := by
    rw [← writesTo_congr hsame, hhandle]
  rw [World.readEntry, Store.handle_of_getElem? hid, h.files_eq, Handle.read_eq hread, hstaged,
    get?_stage_empty, bytes_of_length harchived.length_eq]
  rfl

/-- A read through the store is one through the handle of the archive. -/
theorem Mirrors.read (h : Mirrors files writes store world)
    (harchived : Archived files location source)
    (hkey : Store.key files path = .ok (pathOf location)) (entry : String) :
    ∃ text, Store.sameKey text (pathOf location) = true ∧ (store.read world path entry).2.2
      = visible files source (writesTo (pathOf location) writes) text entry := by
  obtain ⟨hmirrors, hgiven⟩ := h.getHandle path
  have hok : ∃ id, (store.handle world path).2.2 = .ok id := by
    rw [Store.handle, h.files_eq, hkey]
    dsimp only
    split
    case h_1 id hfound => exact ⟨id, rfl⟩
    case h_2 =>
      rw [World.openArchive, h.files_eq, harchived.opens]
      exact ⟨_, rfl⟩
  obtain ⟨id, hid⟩ := hok
  obtain ⟨key, handle, hkey', hhandle, hsame⟩ := hgiven id hid
  rw [hkey] at hkey'
  cases hkey'
  refine ⟨handle.path, hsame, ?_⟩
  rw [← hmirrors.readEntry harchived hhandle hsame, Store.read]
  generalize store.handle world path = result at hid ⊢
  obtain ⟨store', world', result⟩ := result
  cases hid
  rfl

/-- After any run that closes nothing, reads of an entry of an archive give the last successful
write to this entry of this archive, and what the archive contains if there was none: by any path
that leads to the archive, and through any of its handles. Further uses that do not write this entry
of this archive do not change the answer. -/
theorem read_run {uses : List Use} (hcloses : ∀ use ∈ uses, use.closes = false)
    (hrun : run .empty (.ofFiles files) uses = (store, world))
    (h : Archived files location source) (entry : String) :
    (∀ path, Store.key files path = .ok (pathOf location) →
        ∃ text, Store.sameKey text (pathOf location) = true
          ∧ (store.read world path entry).2.2 = visible files source
            (writesTo (pathOf location) (written .empty (.ofFiles files) uses)) text entry)
      ∧ (∀ id handle, world.handles[id]? = some handle →
        Store.sameKey handle.path (pathOf location) = true →
          world.readEntry id entry = visible files source
            (writesTo (pathOf location) (written .empty (.ofFiles files) uses)) handle.path entry)
      ∧ ∀ more, (∀ use ∈ more, use.closes = false) →
        (∀ w ∈ written store world more, Store.sameKey w.path (pathOf location) = true →
          normalizeEntry w.entry ≠ normalizeEntry entry) →
        ∀ path, Store.key files path = .ok (pathOf location) →
          ((run store world more).1.read (run store world more).2 path entry).2.2.toOption
            = (store.read world path entry).2.2.toOption := by
  have hmirrors : Mirrors files (written .empty (.ofFiles files) uses) store world := by
    have hfirst := (mirrors_empty files).run hcloses
    rw [hrun] at hfirst
    exact hfirst
  refine ⟨fun path hkey => hmirrors.read h hkey entry, fun id handle hid hsame =>
    hmirrors.readEntry h hid hsame entry, fun more hmore hother path hkey => ?_⟩
  obtain ⟨text, -, hread⟩ := hmirrors.read h hkey entry
  obtain ⟨text', -, hread'⟩ := (hmirrors.run hmore).read h hkey entry
  rw [hread, hread', visible_append hother]
  exact toOption_visible ..

/-! ## A run with two spellings of one path -/

/-- Writes to one archive by two paths and a handle that the store gave for it, and to a missing
one. -/
def spelledUses : List Use :=
  [.write "lib.jar" "/a" [3], .write "none.jar" "a" [9], .handle "./lib.jar",
    .write "../lib.jar" "b" [4], .writeHandle 0 "//a" [5]]

/-- The last write to the entry is seen by any of the paths, and a missing entry is missing. -/
theorem read_run_spelledUses :
    ∃ store world text, run .empty (.ofFiles twiceWorld.files) spelledUses = (store, world)
      ∧ (store.read world "lib.jar" "///a").2.2 = .ok [5]
      ∧ (store.read world "lib.jar" "/c").2.2 = .error (.entryNotFound text "c") := by
  rcases hrun : run .empty (.ofFiles twiceWorld.files) spelledUses with ⟨store, world⟩
  have hcloses : ∀ use ∈ spelledUses, use.closes = false := by decide
  have hkey : Store.key twiceWorld.files "lib.jar" = .ok (pathOf ["lib.jar"]) := by decide +kernel
  obtain ⟨hread, -⟩ := read_run hcloses hrun archived_twiceWorld "///a"
  obtain ⟨hread', -⟩ := read_run hcloses hrun archived_twiceWorld "/c"
  obtain ⟨text, -, htext⟩ := hread "lib.jar" hkey
  obtain ⟨text', -, htext'⟩ := hread' "lib.jar" hkey
  have hlast : lastWrite (writesTo (pathOf ["lib.jar"])
      (written .empty (.ofFiles twiceWorld.files) spelledUses)) "///a" = some [5] := by
    decide +kernel
  have hnone : lastWrite (writesTo (pathOf ["lib.jar"])
      (written .empty (.ofFiles twiceWorld.files) spelledUses)) "/c" = none := by
    decide +kernel
  have hmissing : contained twiceWorld.files twiceSource "/c" = none := by decide +kernel
  have hname : normalizeEntry "/c" = "c" := by decide +kernel
  refine ⟨store, world, text', rfl, ?_, ?_⟩
  · rw [htext, visible, hlast]
  · rw [htext', visible, hnone, hmissing, Handle.answer, hname]

end Reline.Archive
