/-
  Reline.Proofs.Archive.Durability

  When closing a store makes staged writes durable.

  Before the close, a read gives what was written last, and what the archive
  contained where nothing was written. Afterwards it does so exactly if no link
  stood at the place at which the archive is built anew, and no write went to a
  name that the directory lists more than once: of such a name the first entry is
  replaced, but the last one is found.

  Main statement: `closeAll_durable_iff`.
-/

import Reline.Proofs.Archive.Flush
import Reline.Proofs.Archive.Store
import Reline.Proofs.Zip.Reopening

namespace Reline.Archive

open FileSystem Zip

variable {world after : World} {location : Location} {source : Source}

/-! ## Keys -/

theorem key_of_canonical {fs : FileSystem} {path key : String} (h : fs.canonical path = .ok key) :
    Store.key fs path = .ok key := by
  rw [Store.key, h]

/-- Paths that lead to an archive still lead there when its file was replaced. -/
theorem key_of_replaced {fs fs' : FileSystem} (hcurrent : ∀ name ∈ fs.current, IsName name)
    (hplace : InDirectory fs location) {removed : Location} {id : FileId}
    (h : Replaced fs fs' location removed id) {path : String}
    (hkey : Store.key fs path = .ok (pathOf location)) :
    Store.key fs' path = .ok (pathOf location) := by
  obtain ⟨old, hold⟩ := h.before
  rw [Store.key] at hkey
  cases hcanonical : fs.canonical path with
  | ok key =>
    rw [hcanonical] at hkey
    cases hkey
    have hbefore := inspect_of_canonical hcurrent hplace hold hcanonical
    exact key_of_canonical (canonical_eq_ok_iff.2 ⟨_, _, h.inspect hbefore, rfl⟩)
  | error e =>
    rw [hcanonical] at hkey
    rw [Store.key]
    cases hafter : fs'.canonical path with
    | ok key =>
      -- a path that leads somewhere now would have led there before
      obtain ⟨l, node, hinspect, -⟩ := canonical_eq_ok_iff.1 hafter
      obtain ⟨node', hbefore⟩ := h.inspect_before hinspect
      have hok := canonical_eq_ok_iff.2 ⟨l, node', hbefore, rfl⟩
      rw [hcanonical] at hok
      contradiction
    | error e' =>
      rw [h.current]
      exact hkey

/-! ## What reads give -/

/-- Whether an archive that can be opened stands at a place. -/
structure Archived (fs : FileSystem) (location : Location) (source : Source) : Prop where
  wellFormed : WellFormed fs
  place : fs.inspect (pathOf location) = .ok (location, .file source.file)
  opens : Handle.openAt fs (pathOf location) = .ok ⟨pathOf location, some source, ∅⟩

/-- What an archive contains under the name of an entry. -/
def contained (fs : FileSystem) (source : Source) (entry : String) :
    Option (Except Zip.Error Bytes) :=
  lastContent Entry.name (Entry.read · (fs.data source.file).bytes) source.directory.entries
    (normalizeEntry entry)

theorem bytes_of_length {fs : FileSystem} (h : source.length = (fs.data source.file).bytes.size) :
    source.bytes fs = (fs.data source.file).bytes := by
  rw [Source.bytes, h, Buffer.resize, if_pos rfl]

theorem Archived.length_eq {fs : FileSystem} (h : Archived fs location source) :
    source.length = (fs.data source.file).bytes.size := by
  obtain ⟨file, directory, -, -, -, heq⟩ := Handle.openAt_eq_ok_iff.1 h.opens
  cases heq
  rfl

/-- Reading from a store that is ready gives what the archive contains. -/
theorem Archived.read_eq {store : Store} {path : String} (h : Archived world.files location source)
    (hready : store.Ready world (pathOf location))
    (hkey : Store.key world.files path = .ok (pathOf location)) (entry : String) :
    (store.read world path entry).2.2
      = Handle.answer (pathOf location) entry (contained world.files source entry) := by
  rw [hready.read_eq hkey h.opens, Handle.read_unstaged, bytes_of_length h.length_eq]
  rfl

/-- While writes are staged, reading gives the last write to an entry, and else what the archive
contains. -/
theorem Archived.read_staged {store : Store} {path : String} {id : HandleId} {writes : List Write}
    (h : Archived world.files location source)
    (hserves : store.Serves world (pathOf location) id
      ⟨pathOf location, some source, stage ∅ writes⟩)
    (hkey : Store.key world.files path = .ok (pathOf location)) (entry : String) :
    (store.read world path entry).2.2
      = match lastWrite writes entry with
        | some bytes => .ok bytes
        | none => Handle.answer (pathOf location) entry (contained world.files source entry) := by
  rw [hserves.read_eq hkey, Handle.read_eq rfl]
  dsimp only
  rw [get?_stage_empty, bytes_of_length h.length_eq]
  rfl

/-- Reading an archive whose file was replaced by items that reopen gives what they contain. -/
theorem Archived.read_replaced {fs : FileSystem} {removed : Location} {id : FileId} {path : String}
    {items : List Item} {comment : Bytes} (h : Archived fs location source)
    (hreplaced : Replaced fs after.files location removed id)
    (hbytes : (after.files.data id).bytes = (Zip.encode items comment).toArray)
    (hmedium : (after.files.data id).medium = .disk) (hreopens : Reopens items comment)
    (hkey : Store.key after.files path = .ok (pathOf location)) (entry : String) :
    (Store.empty.read after path entry).2.2
      = Handle.answer (pathOf location) entry
        (lastContent Item.name Item.content items (normalizeEntry entry)) := by
  obtain ⟨entries, hread, hpresents⟩ := hreopens
  rw [← hbytes] at hread hpresents
  have hfile : after.files.openFile (pathOf location) = .ok (some id) :=
    openFile_eq_ok_some_iff.2 ⟨location, hreplaced.inspect h.place⟩
  have hopen := Handle.openAt_eq_ok_iff.2 ⟨id, _, hfile, hmedium, hread, rfl⟩
  rw [(Store.ready_empty after _).read_eq hkey hopen, Handle.read_unstaged, bytes_of_length rfl,
    lastContent_of_presents hpresents]

/-! ## Closing without a link -/

/-- If no link stands at the place at which the archive is built anew, the last write to an entry is
found after the close if the directory lists its name at most once; all else is found as before. -/
theorem Archived.read_flushed {writes : List Write} {path : String}
    (h : Archived world.files location source)
    (hlink : ∀ goal, world.files.node? (Handle.besides location) ≠ some (.link goal))
    (hreopens : ∀ items, Handle.rebuiltItems (world.files.data source.file).bytes source.directory
      (stage ∅ writes) = .ok items → Reopens items source.directory.comment)
    (hflush : Handle.flush world.files source (stage ∅ writes) (pathOf location)
      = (after.files, .ok ()))
    (hkey : Store.key world.files path = .ok (pathOf location)) (entry : String) :
    (Store.empty.read after path entry).2.2
      = match lastWrite writes entry with
        | some bytes =>
          if Handle.listed source.directory.entries (normalizeEntry entry) ≤ 1 then .ok bytes
          else Handle.answer (pathOf location) entry (contained world.files source entry)
        | none => Handle.answer (pathOf location) entry (contained world.files source entry) := by
  obtain ⟨hplace, hnode⟩ := node?_of_inspect (isAbsolute_pathOf location) h.place
  obtain ⟨id, items, hreplaced, hitems, hbytes, hmedium⟩ :=
    Handle.replaced_of_flush h.wellFormed hplace hnode h.length_eq hlink hflush
  have hafter := key_of_replaced h.wellFormed.current hplace hreplaced hkey
  rw [h.read_replaced hreplaced hbytes hmedium (hreopens items hitems) hafter,
    Handle.lastContent_rebuiltItems hitems, get?_stage_empty]
  cases lastWrite writes entry with
  | none => rfl
  | some bytes =>
    dsimp only
    split <;> rfl

/-! ## Closing with a link -/

/-- An archive lacks an entry only if it was opened under its own path. -/
theorem key_of_entryNotFound {path key missing entry : String}
    (h : (Store.empty.read world path entry).2.2 = .error (.entryNotFound key missing)) :
    Store.key world.files path = .ok key
      ∧ ∃ handle, Handle.openAt world.files key = .ok handle := by
  cases hkey : Store.key world.files path with
  | error e =>
    rw [Store.read, Store.handle, hkey] at h
    cases h
    rw [Store.key] at hkey
    split at hkey
    · contradiction
    · split at hkey <;> cases hkey
  | ok key' =>
    cases hopen : Handle.openAt world.files key' with
    | error e =>
      have hfound : (Store.empty.find? key').bind Cell.handle = none := rfl
      rw [Store.read, Store.handle, hkey] at h
      dsimp only at h
      rw [hfound, World.openArchive, hopen] at h
      cases h
      exact absurd hopen (Handle.openAt_ne_entryNotFound _ _ _ _)
    | ok handle =>
      obtain ⟨file, directory, -, -, -, rfl⟩ := Handle.openAt_eq_ok_iff.1 hopen
      rw [(Store.ready_empty world key').read_eq hkey hopen, Handle.read_unstaged] at h
      have hpath : key' = key := Handle.path_eq_of_answer h
      subst hpath
      exact ⟨rfl, _, hopen⟩

/-- Where a link stands no archive is found under the path of its place. -/
theorem read_ne_entryNotFound_of_link {goal missing entry : String}
    (hname : ∀ name ∈ location, IsName name) (hne : location ≠ [])
    (hlink : after.files.node? location = some (.link goal)) :
    (Store.empty.read after (pathOf location) entry).2.2
      ≠ .error (.entryNotFound (pathOf location) missing) := by
  intro h
  obtain ⟨hkey, handle, hopen⟩ := key_of_entryNotFound h
  obtain ⟨file, directory, hfile, -, -, -⟩ := Handle.openAt_eq_ok_iff.1 hopen
  obtain ⟨l, hinspect⟩ := openFile_eq_ok_some_iff.1 hfile
  have hcanonical := key_of_canonical (canonical_eq_ok_iff.2 ⟨l, _, hinspect, rfl⟩)
  rw [hkey, Except.ok.injEq] at hcanonical
  obtain ⟨hplace, hstands⟩ := node?_of_inspect (isAbsolute_pathOf location) hinspect
  -- the path leads to the place of the link, where no file stands
  have hsame := pathOf_injective hne hname hplace.isName hcanonical
  rw [← hsame, hlink] at hstands
  cases hstands

/-- There is a name beside finitely many. -/
theorem exists_normalizeEntry_not_mem (names : List String) :
    ∃ entry, normalizeEntry entry ∉ names := by
  generalize hcount : (names.map String.length).sum = count
  refine ⟨String.ofList (List.replicate (count + 1) 'a'), fun hmem => ?_⟩
  have hname : normalizeEntry (String.ofList (List.replicate (count + 1) 'a'))
      = String.ofList (List.replicate (count + 1) 'a') := by
    rw [normalizeEntry, String.toList_ofList, List.replicate_succ,
      List.dropWhile_cons_of_neg (by decide)]
  rw [hname] at hmem
  have hlength := List.le_sum_of_mem (List.mem_map_of_mem (f := String.length) hmem)
  have htotal : (String.ofList (List.replicate (count + 1) 'a')).length = count + 1 := by simp
  omega

/-- After a flush with a link at the place at which the archive is built anew, some read no longer
gives what it gave before. -/
theorem Archived.exists_read_ne {writes : List Write} {goal : String}
    (h : Archived world.files location source)
    (hlink : world.files.node? (Handle.besides location) = some (.link goal))
    (hflush : Handle.flush world.files source (stage ∅ writes) (pathOf location)
      = (after.files, .ok ())) :
    ∃ entry, lastWrite writes entry = none ∧ (Store.empty.read after (pathOf location) entry).2.2
      ≠ Handle.answer (pathOf location) entry (contained world.files source entry) := by
  obtain ⟨hplace, -⟩ := node?_of_inspect (isAbsolute_pathOf location) h.place
  have hthere := Handle.node?_of_flush_of_link hplace hlink hflush
  -- an entry that was neither written nor listed was missing before, in this archive
  obtain ⟨entry, hentry⟩ := exists_normalizeEntry_not_mem
    (writes.map (normalizeEntry ·.entry) ++ source.directory.entries.map Entry.name)
  rw [List.mem_append, not_or] at hentry
  have hwritten : lastWrite writes entry = none := by
    rw [lastWrite, List.find?_eq_none.2]
    · rfl
    · intro w hw
      have hne : normalizeEntry w.entry ≠ normalizeEntry entry := fun heq =>
        hentry.1 (List.mem_map.2 ⟨w, List.mem_reverse.1 hw, heq⟩)
      simpa using hne
  have hcontained : contained world.files source entry = none := by
    apply lastContent_eq_none
    intro e he heq
    exact hentry.2 (List.mem_map.2 ⟨e, he, heq⟩)
  refine ⟨entry, hwritten, ?_⟩
  rw [hcontained]
  exact read_ne_entryNotFound_of_link hplace.isName hplace.ne_nil hthere

/-! ## Closing -/

/-- What a read has to give after writes: the last one to its entry, and what a read gave before
where nothing was written. -/
def Store.expected (store : Store) (world : World) (writes : List Write) (path entry : String) :
    Except Error Bytes :=
  match lastWrite writes entry with
  | some bytes => .ok bytes
  | none => (store.read world path entry).2.2

theorem Archived.expected_eq {store : Store} {path : String}
    (h : Archived world.files location source) (hready : store.Ready world (pathOf location))
    (hkey : Store.key world.files path = .ok (pathOf location)) (writes : List Write)
    (entry : String) :
    store.expected world writes path entry
      = match lastWrite writes entry with
        | some bytes => .ok bytes
        | none => Handle.answer (pathOf location) entry (contained world.files source entry) := by
  rw [Store.expected, h.read_eq hready hkey]

theorem Archived.key_eq {fs : FileSystem} (h : Archived fs location source) :
    Store.key fs (pathOf location) = .ok (pathOf location) :=
  key_of_canonical (canonical_eq_ok_iff.2 ⟨location, _, h.place, rfl⟩)

/-- A flush keeps all reads exactly if no link stood at the place at which the archive is built
anew, and no write was lost to an earlier entry of its name. -/
theorem Archived.reads_flushed_iff {writes : List Write} (h : Archived world.files location source)
    (hreopens : ∀ items, Handle.rebuiltItems (world.files.data source.file).bytes source.directory
      (stage ∅ writes) = .ok items → Reopens items source.directory.comment)
    (hflush : Handle.flush world.files source (stage ∅ writes) (pathOf location)
      = (after.files, .ok ())) :
    (∀ path entry, Store.key world.files path = .ok (pathOf location) →
        (Store.empty.read after path entry).2.2 = match lastWrite writes entry with
          | some bytes => .ok bytes
          | none => Handle.answer (pathOf location) entry (contained world.files source entry))
      ↔ (∀ goal, world.files.node? (Handle.besides location) ≠ some (.link goal))
        ∧ ∀ entry bytes, lastWrite writes entry = some bytes →
          Handle.listed source.directory.entries (normalizeEntry entry) ≤ 1
            ∨ Handle.answer (pathOf location) entry (contained world.files source entry)
              = .ok bytes := by
  constructor
  · intro hreads
    have hlink : ∀ goal, world.files.node? (Handle.besides location) ≠ some (.link goal) := by
      intro goal hgoal
      -- with a link in the way some entry that was written is not read
      obtain ⟨entry, hwritten, hne⟩ := h.exists_read_ne hgoal hflush
      have hread := hreads _ entry h.key_eq
      rw [hwritten] at hread
      exact hne hread
    refine ⟨hlink, fun entry bytes hwritten => or_iff_not_imp_left.2 fun hlisted => ?_⟩
    have hread := hreads _ entry h.key_eq
    rw [h.read_flushed hlink hreopens hflush h.key_eq, hwritten] at hread
    exact (if_neg hlisted).symm.trans hread
  · rintro ⟨hlink, hlisted⟩ path entry hkey
    rw [h.read_flushed hlink hreopens hflush hkey]
    cases hwritten : lastWrite writes entry with
    | none => rfl
    | some bytes =>
      dsimp only
      split
      case isTrue => rfl
      case isFalse hmore => exact (hlisted entry bytes hwritten).resolve_left hmore

/-- Writes to an archive that was opened succeed and are read at once. Closing the store keeps what
they gave exactly if there were none, or no link stood at the place at which the archive is built
anew and each was of a name that was listed at most once or gave what was there already. -/
theorem closeAll_durable_iff {store dirty closed : Store} {written : World} {writes : List Write}
    {result : Except Error Unit} (h : Archived world.files location source)
    (hready : store.Ready world (pathOf location))
    (hkeys : ∀ w ∈ writes, Store.key world.files w.path = .ok (pathOf location))
    (hwrites : store.writeAll world writes = (dirty, written, result))
    (hclose : dirty.closeAll written = (closed, after, []))
    (hreopens : ∀ items, Handle.rebuiltItems (world.files.data source.file).bytes source.directory
      (stage ∅ writes) = .ok items → Reopens items source.directory.comment) :
    result = .ok ()
      ∧ (∀ path entry, Store.key world.files path = .ok (pathOf location) →
        (dirty.read written path entry).2.2 = store.expected world writes path entry)
      ∧ ((∀ path entry, Store.key world.files path = .ok (pathOf location) →
          (closed.read after path entry).2.2 = store.expected world writes path entry)
        ↔ writes = [] ∨ (∀ goal, world.files.node? (Handle.besides location) ≠ some (.link goal))
          ∧ ∀ entry bytes, lastWrite writes entry = some bytes →
            Handle.listed source.directory.entries (normalizeEntry entry) ≤ 1
              ∨ (store.read world (pathOf location) entry).2.2 = .ok bytes) := by
  have hclosed : closed = Store.empty := (congrArg Prod.fst hclose).symm
  subst hclosed
  by_cases hne : writes = []
  · subst hne
    cases hwrites
    refine ⟨rfl, fun path entry hkey => rfl, fun _ => .inl rfl, fun _ path entry hkey => ?_⟩
    -- nothing was staged, so the close changes no file
    have hfiles : after.files = world.files :=
      (congrArg (·.2.1.files) hclose).symm.trans hready.files_closeAll
    have hstored : Archived after.files location source := hfiles ▸ h
    rw [hstored.read_eq (Store.ready_empty ..) (hfiles ▸ hkey), h.expected_eq hready hkey, hfiles]
    rfl
  · obtain ⟨dirty', written', id, hwrites', hfiles, hserves⟩ :=
      hready.writeAll_eq h.opens rfl hne hkeys
    rw [hwrites] at hwrites'
    cases hwrites'
    have hflush := hserves.exists_flush rfl (isEmpty_stage hne ∅) hclose
    rw [hfiles] at hflush
    refine ⟨rfl, fun path entry hkey => ?_, ?_⟩
    · have hstored : Archived written.files location source := hfiles ▸ h
      rw [hstored.read_staged hserves (hfiles ▸ hkey), h.expected_eq hready hkey, hfiles]
    · simp only [h.read_eq hready h.key_eq]
      rw [or_iff_right hne, ← h.reads_flushed_iff hreopens hflush]
      exact forall₃_congr fun path entry hkey => by rw [h.expected_eq hready hkey]

/-! ## An archive that lists a name twice -/

/-- A stored item of one byte. -/
def oneByte (b : UInt8) : Item :=
  .ofData "a" .stored defaultDate 0 defaultMode [b]

/-- The directory of the archive of two items of one name. -/
def twiceDirectory : Directory :=
  ⟨[(oneByte 1).entry 0, (oneByte 2).entry 32], []⟩

/-- A world with this archive. -/
def twiceWorld : World :=
  .ofFiles {
    nodes := [(["lib.jar"], .file 0)]
    files := #[⟨(Zip.encode [oneByte 1, oneByte 2] []).toArray, newFileMode, .disk⟩]
    current := [] }

/-- The archive as it is opened. -/
def twiceSource : Source :=
  ⟨0, (twiceWorld.files.data 0).bytes.size, twiceDirectory⟩

/-- A write to the name that is listed twice. -/
def twiceWrites : List Write := [⟨"lib.jar", "/a", [3]⟩]

/-- The items after the write: it takes the place of the first one, and the last one stays. -/
def twiceItems : List Item :=
  [{ oneByte 3 with mode := 0o100644 }, { oneByte 2 with mode := 0o644 }]

theorem fits_pair {mode mode' : Nat} (hmode : mode < 2 ^ 16) (hmode' : mode' < 2 ^ 16)
    (b b' : UInt8) :
    Fits [{ oneByte b with mode }, { oneByte b' with mode := mode' }] [] := by
  have hfits (b : UInt8) {mode : Nat} (hmode : mode < 2 ^ 16) :
      (Item.ofData "a" .stored defaultDate 0 mode [b]).Fits :=
    fits_ofData (by decide) (.inl rfl) (by decide) (by decide) hmode (by decide : 1 < 2 ^ 32)
  have hlength (b : UInt8) : (oneByte b).nameBytes.length + (oneByte b).compressed.length ≤ 2 :=
    Nat.le_refl 2
  exact fits_of_length_le
    (List.forall_mem_cons.2 ⟨hfits b hmode, List.forall_mem_singleton.2 (hfits b' hmode')⟩)
    (List.forall_mem_cons.2 ⟨hlength b, List.forall_mem_singleton.2 (hlength b')⟩)
    (by decide : 2 < 2 ^ 16) (by decide : 2 * (46 + 2) < 2 ^ 32)

theorem archived_twiceWorld : Archived twiceWorld.files ["lib.jar"] twiceSource where
  wellFormed := wellFormed_of_forall (fun _ hname => absurd hname List.not_mem_nil) <| by
    intro pair hpair id hid
    cases List.mem_singleton.1 hpair
    cases hid
    decide
  place := rfl
  opens := Handle.openAt_eq_ok_iff.2
    ⟨0, twiceDirectory, rfl, rfl, Directory.read_encode (fits_pair (by decide) (by decide) 1 2),
      rfl⟩

theorem rebuiltItems_twiceWorld :
    Handle.rebuiltItems (twiceWorld.files.data twiceSource.file).bytes twiceSource.directory
      (stage ∅ twiceWrites) = .ok twiceItems := by
  decide +kernel

theorem reopens_twiceItems : Reopens twiceItems twiceSource.directory.comment :=
  reopens_of_fits (fits_pair (by decide) (by decide) 3 2)

/-- Closing succeeds after the write, and the write is lost. -/
theorem exists_closeAll_not_durable :
    ∃ dirty written closed after,
      Store.empty.writeAll twiceWorld twiceWrites = (dirty, written, .ok ())
        ∧ dirty.closeAll written = (closed, after, [])
        ∧ ¬ ∀ path entry, Store.key twiceWorld.files path = .ok (pathOf ["lib.jar"]) →
          (closed.read after path entry).2.2
            = Store.empty.expected twiceWorld twiceWrites path entry := by
  have hfailures : ((Store.empty.writeAll twiceWorld twiceWrites).1.closeAll
      (Store.empty.writeAll twiceWorld twiceWrites).2.1).2.2 = [] := by decide +kernel
  have hkeys : ∀ w ∈ twiceWrites, Store.key twiceWorld.files w.path = .ok (pathOf ["lib.jar"]) :=
    List.forall_mem_singleton.2 (by decide +kernel)
  have hready : Store.empty.Ready twiceWorld (pathOf ["lib.jar"]) := Store.ready_empty ..
  have hreopens : ∀ items, Handle.rebuiltItems (twiceWorld.files.data twiceSource.file).bytes
      twiceSource.directory (stage ∅ twiceWrites) = .ok items →
        Reopens items twiceSource.directory.comment := by
    intro items hitems
    rw [rebuiltItems_twiceWorld] at hitems
    cases hitems
    exact reopens_twiceItems
  rcases hwrites : Store.empty.writeAll twiceWorld twiceWrites with ⟨dirty, written, result⟩
  rw [hwrites] at hfailures
  rcases hclose : dirty.closeAll written with ⟨closed, after, failures⟩
  rw [hclose] at hfailures
  have hfailures : failures = [] := hfailures
  subst hfailures
  obtain ⟨rfl, -, hiff⟩ :=
    closeAll_durable_iff archived_twiceWorld hready hkeys hwrites hclose hreopens
  refine ⟨dirty, written, closed, after, rfl, hclose, fun hreads => ?_⟩
  have hlast : lastWrite twiceWrites "a" = some [3] := by decide +kernel
  rcases hiff.1 hreads with hnone | ⟨-, hlisted⟩
  · exact absurd hnone (List.cons_ne_nil _ _)
  · rcases hlisted "a" [3] hlast with honce | hbefore
    · exact absurd honce (by decide +kernel)
    · exact absurd hbefore (by decide +kernel)

end Reline.Archive
