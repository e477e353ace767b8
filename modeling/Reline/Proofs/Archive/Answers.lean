/-
  Reline.Proofs.Archive.Answers

  What reads through a store answer, and what changes the answers.

  A read goes to the handle that the store has for the place, and else to the
  archive as it would be opened now. So asking for a handle changes no answer,
  with one exception: a path that leads nowhere may have the names of the archive
  that is opened, such as one with a slash behind it. Such a path was not to be
  opened before, and is answered by the archive from then on. A write changes the
  answers about its entry only.
-/

import Reline.Proofs.Archive.Congruence
import Reline.Proofs.Archive.Liveness
import Reline.Proofs.Archive.Sharing

namespace Reline.Archive

open FileSystem

variable {store store' : Store} {world world' : World} {key path other entry : String}
  {id : HandleId}

/-! ## Answers -/

/-- What reading an entry through a store answers. -/
def Store.answer (store : Store) (world : World) (path entry : String) : Except Error Bytes :=
  (store.read world path entry).2.2

/-- A read is answered by the handle that the store has, and else by the archive as it is. -/
theorem Store.answer_eq (store : Store) (world : World) (path entry : String) :
    store.answer world path entry = (Store.key world.files path).bind fun key =>
      match store.held? key with
      | some id => world.readEntry id entry
      | none => (Handle.openAt world.files key).bind fun handle => handle.read world.files entry := by
  rw [answer, read, handle]
  cases Store.key world.files path with
  | error e => rfl
  | ok key =>
    dsimp only [Except.bind]
    rw [held?]
    cases (store.find? key).bind Cell.handle with
    | some id => rfl
    | none =>
      dsimp only
      rw [World.openArchive]
      cases Handle.openAt world.files key with
      | error e => rfl
      | ok handle =>
        dsimp only [World.record]
        rw [World.readEntry, World.handle_push, if_pos rfl]

theorem Store.answer_of_held (hkey : Store.key world.files path = .ok key)
    (hheld : store.held? key = some id) (entry : String) :
    store.answer world path entry = world.readEntry id entry := by
  rw [answer_eq, hkey]
  dsimp only [Except.bind]
  rw [hheld]

theorem Store.answer_of_vacant (hkey : Store.key world.files path = .ok key)
    (hvacant : store.held? key = none) (entry : String) :
    store.answer world path entry
      = (Handle.openAt world.files key).bind fun handle => handle.read world.files entry := by
  rw [answer_eq, hkey]
  dsimp only [Except.bind]
  rw [hvacant]

/-- Answers depend on the files, on which handles are held, and on these. -/
theorem Store.answer_congr (hfiles : world'.files = world.files)
    (hheld : ∀ key, store'.held? key = store.held? key)
    (hread : ∀ key id, store.held? key = some id →
      world'.readEntry id entry = world.readEntry id entry)
    (path : String) : store'.answer world' path entry = store.answer world path entry := by
  rw [answer_eq, answer_eq, hfiles]
  cases Store.key world.files path with
  | error e => rfl
  | ok key =>
    dsimp only [Except.bind]
    rw [hheld]
    cases hid : store.held? key with
    | none => rfl
    | some id => exact hread key id hid

theorem Store.answer_eq_of_eq (hfiles : world'.files = world.files)
    (hhandles : world'.handles = world.handles) (store : Store) (path entry : String) :
    store.answer world' path entry = store.answer world path entry := by
  refine answer_congr hfiles (fun _ => rfl) (fun key id _ => ?_) path
  rw [World.readEntry, World.readEntry, World.handle, World.handle, hfiles, hhandles]

theorem Store.answer_record (store : Store) (world : World) (level : Log.Level)
    (origin : Log.Source) (text path entry : String) :
    store.answer (world.record level origin text) path entry = store.answer world path entry :=
  @answer_eq_of_eq world (world.record level origin text) rfl rfl store path entry

/-! ## Asking for a handle -/

/-- Whether two paths are registered at one place. -/
def SamePlace (fs : FileSystem) (path other : String) : Prop :=
  ∃ key key', Store.key fs path = .ok key ∧ Store.key fs other = .ok key'
    ∧ Store.sameKey key key' = true

/-- Whether a path is registered at the place of an archive that is not open yet, under another text
than the one that opens it. -/
def Store.Strays (store : Store) (fs : FileSystem) (path other : String) : Prop :=
  ∃ key key' handle, Store.key fs path = .ok key ∧ Store.key fs other = .ok key'
    ∧ Store.sameKey key key' = true ∧ key' ≠ key
    ∧ store.held? key = none ∧ Handle.openAt fs key = .ok handle

/-- No path that leads somewhere strays from another. -/
theorem Store.not_strays_of_canonical (store : Store) {fs : FileSystem} (hfiles : WellFormed fs)
    {key key' : String} (hpath : fs.canonical path = .ok key)
    (hother : fs.canonical other = .ok key') : ¬ store.Strays fs path other := by
  rintro ⟨key₁, key₂, handle, hkey, hkey', hsame, hne, -, -⟩
  cases hkey.symm.trans (key_of_canonical hpath)
  cases hkey'.symm.trans (key_of_canonical hother)
  exact hne (eq_of_sameKey hfiles hfiles hpath hother hsame).symm

/-- No path strays from itself. -/
theorem Store.not_strays_self (store : Store) (fs : FileSystem) (path : String) :
    ¬ store.Strays fs path path := by
  rintro ⟨key, key', -, hkey, hkey', -, hne, -⟩
  cases hkey.symm.trans hkey'
  exact hne rfl

/-- Whether a read is answered as before an archive was asked for: by the same, or by this archive
if the path strays from its path. -/
structure Store.KeepsAnswer (store : Store) (world : World) (path : String) (store' : Store)
    (world' : World) (other entry : String) : Prop where
  strayed : store.Strays world.files path other →
    store'.answer world' other entry = store.answer world path entry
  kept : ¬ store.Strays world.files path other →
    store'.answer world' other entry = store.answer world other entry

theorem Store.KeepsAnswer.of_eq {last : World}
    (h : store.KeepsAnswer world path store' world' other entry)
    (hfiles : last.files = world'.files) (hhandles : last.handles = world'.handles) :
    store.KeepsAnswer world path store' last other entry := by
  have heq := answer_eq_of_eq hfiles hhandles store' other entry
  exact ⟨fun hstrays => heq.trans (h.strayed hstrays), fun hstrays => heq.trans (h.kept hstrays)⟩

section Opening

variable {handle : Handle} {log : List Log.Message}

/-- The handle that is opened answers as the archive did before. -/
theorem Store.answer_opened_of_sameKey (keyed : Store.key world.files path = .ok key)
    (vacant : store.held? key = none) (opening : Handle.openAt world.files key = .ok handle)
    {key' : String} (hother : Store.key world.files other = .ok key')
    (hsame : sameKey key key' = true) :
    (store.register key (some world.handles.size)).answer
        ⟨world.files, world.handles.push handle, log⟩ other entry
      = store.answer world path entry := by
  have hheld : (store.register key (some world.handles.size)).held? key'
      = some world.handles.size := by
    rw [store.held?_register, if_pos hsame]
  have hthere : Store.key (⟨world.files, world.handles.push handle, log⟩ : World).files other
      = .ok key' := hother
  rw [Store.answer_of_held hthere hheld, Store.answer_of_vacant keyed vacant, opening,
    World.readEntry, World.handle_push, if_pos rfl]
  rfl

/-- What is registered at other places is answered as before. -/
theorem Store.answer_opened_of_not_samePlace (hregistered : Registered store world)
    (keyed : Store.key world.files path = .ok key) (hplace : ¬ SamePlace world.files path other) :
    (store.register key (some world.handles.size)).answer
        ⟨world.files, world.handles.push handle, log⟩ other entry
      = store.answer world other entry := by
  rw [answer_eq, answer_eq]
  cases hother : Store.key world.files other with
  | error e => rfl
  | ok key' =>
    have hsame : ¬ sameKey key key' = true := fun hsame => hplace ⟨key, key', keyed, hother, hsame⟩
    dsimp only [Except.bind]
    rw [store.held?_register, if_neg hsame]
    cases hheld : store.held? key' with
    | none => rfl
    | some id =>
      dsimp only
      rw [World.readEntry, World.readEntry, World.handle_push,
        if_neg (Nat.ne_of_lt (hregistered.of_held hheld).1)]

end Opening

/-- Asking for a handle changes no answer, unless it opens an archive of which a path strays: this
path is answered by the archive then. -/
theorem Store.Asks.keepsAnswer {result : Except Error HandleId}
    (h : store.Asks world path store' world' result) (hregistered : Registered store world)
    (other entry : String) : store.KeepsAnswer world path store' world' other entry := by
  cases h with
  | invalid keyed =>
    refine ⟨?_, fun _ => rfl⟩
    rintro ⟨key, -, -, hkey, -⟩
    cases keyed.symm.trans hkey
  | held keyed held =>
    refine ⟨?_, fun _ => rfl⟩
    rintro ⟨key, -, -, hkey, -, -, -, hvacant, -⟩
    cases keyed.symm.trans hkey
    cases held.symm.trans hvacant
  | refused keyed vacant refusal =>
    constructor
    · rintro ⟨key, -, handle, hkey, -, -, -, -, hopen⟩
      cases keyed.symm.trans hkey
      cases refusal.symm.trans hopen
    · intro _
      obtain ⟨-, hheld⟩ := (Store.Asks.refused keyed vacant refusal).of_error
      exact answer_congr rfl hheld (fun _ _ _ => rfl) other
  | @opened key handle log keyed vacant opening =>
    constructor
    · rintro ⟨key₁, key', -, hkey, hother, hsame, -⟩
      cases keyed.symm.trans hkey
      exact answer_opened_of_sameKey keyed vacant opening hother hsame
    · intro hstrays
      by_cases hplace : SamePlace world.files path other
      · obtain ⟨key₁, key', hkey, hother, hsame⟩ := hplace
        cases keyed.symm.trans hkey
        -- a path that does not stray has the text that opens the archive
        have heq : key' = key := by
          by_contra hne
          exact hstrays ⟨key, key', handle, keyed, hother, hsame, hne, vacant, opening⟩
        subst heq
        rw [answer_opened_of_sameKey keyed vacant opening hother hsame,
          Store.answer_of_vacant keyed vacant, Store.answer_of_vacant hother vacant]
      · exact answer_opened_of_not_samePlace hregistered keyed hplace

/-- Nothing is staged in a handle that is opened. -/
theorem Store.Asks.handles_cases {result : Except Error HandleId}
    (h : store.Asks world path store' world' result) :
    world'.handles = world.handles
      ∨ ∃ handle : Handle, world'.handles = world.handles.push handle ∧ handle.staged = ∅ := by
  cases h with
  | invalid keyed => exact .inl rfl
  | held keyed held => exact .inl rfl
  | refused keyed vacant refusal => exact .inl rfl
  | opened keyed vacant opening =>
    obtain ⟨file, directory, -, -, -, rfl⟩ := Handle.openAt_eq_ok_iff.1 opening
    exact .inr ⟨_, rfl, rfl⟩

theorem Store.Asks.unstaged {result : Except Error HandleId}
    (h : store.Asks world path store' world' result) (hunstaged : Unstaged world) :
    Unstaged world' := by
  cases h with
  | invalid keyed => exact hunstaged
  | held keyed held => exact hunstaged
  | refused keyed vacant refusal => exact hunstaged
  | opened keyed vacant opening =>
    obtain ⟨file, directory, -, -, -, rfl⟩ := Handle.openAt_eq_ok_iff.1 opening
    intro id hid
    rw [World.handle_push] at hid ⊢
    split
    case isTrue => rfl
    case isFalse hne =>
      rw [if_neg hne] at hid
      exact hunstaged id hid

/-- Asking again for a handle that was given changes nothing. -/
theorem Store.Asks.handle_again (h : store.Asks world path store' world' (.ok id)) :
    store'.handle world' path = (store', world', .ok id) := by
  obtain ⟨key, hkey, hheld⟩ := h.held_of_ok
  rw [← h.files_eq] at hkey
  rw [held?] at hheld
  rw [handle, hkey]
  dsimp only
  rw [hheld]

/-! ## Writing -/

/-- A handle that answers something is not closed. -/
theorem source_ne_none_of_readEntry {bytes : Bytes} (hunstaged : Unstaged world)
    (hread : world.readEntry id entry = .ok bytes) : (world.handle id).source ≠ none := by
  intro hclosed
  obtain ⟨path, hanswer⟩ :=
    (Handle.read_closed_iff (fun _ => hunstaged id hclosed) world.files entry).2 hclosed
  cases hanswer.symm.trans hread

theorem World.readEntry_writeEntry {bytes : Bytes} (hopen : (world.handle id).source ≠ none)
    (i : HandleId) (other : String) :
    (world.writeEntry id entry bytes).1.readEntry i other
      = if i = id ∧ normalizeEntry other = normalizeEntry entry then .ok bytes
        else world.readEntry i other := by
  obtain ⟨source, hsource⟩ := Option.ne_none_iff_exists'.1 hopen
  have hbound : ¬ world.handles.size ≤ id := by
    intro hbound
    rw [World.handle_of_size_le hbound] at hsource
    cases hsource
  rw [World.writeEntry, Handle.write, hsource]
  dsimp only
  rw [World.readEntry, handle_setIfInBounds world world.files world.log i (absurd · hbound)]
  by_cases hi : i = id
  · subst hi
    rw [if_pos rfl, World.readEntry, Handle.read, Handle.read]
    dsimp only
    rw [OrderedTable.get?_insert]
    by_cases hname : normalizeEntry other = normalizeEntry entry
    · rw [if_pos hname, if_pos ⟨rfl, hname⟩]
    · rw [if_neg hname, if_neg fun h => hname h.2, hsource]
  · rw [if_neg hi, if_neg fun h => hi h.1]
    rfl

/-- A write changes the answers about its entry, under all paths of its place, and no others. -/
theorem Store.answer_writeEntry (hregistered : Registered store world)
    (hkey : Store.key world.files path = .ok key) (hheld : store.held? key = some id)
    (hopen : (world.handle id).source ≠ none) (entry : String) (bytes : Bytes)
    (other name : String) :
    (SamePlace world.files path other ∧ normalizeEntry name = normalizeEntry entry →
        store.answer (world.writeEntry id entry bytes).1 other name = .ok bytes)
      ∧ (¬ (SamePlace world.files path other ∧ normalizeEntry name = normalizeEntry entry) →
        store.answer (world.writeEntry id entry bytes).1 other name
          = store.answer world other name) := by
  constructor
  · rintro ⟨⟨key₁, key', hkey₁, hother, hsame⟩, hname⟩
    cases hkey.symm.trans hkey₁
    rw [store.held?_congr hsame] at hheld
    rw [← files_writeEntry world id entry bytes] at hother
    rw [answer_of_held hother hheld, World.readEntry_writeEntry hopen, if_pos ⟨rfl, hname⟩]
  · intro hapart
    rw [answer_eq, answer_eq, files_writeEntry]
    cases hother : Store.key world.files other with
    | error e => rfl
    | ok key' =>
      dsimp only [Except.bind]
      cases hheld' : store.held? key' with
      | none => rfl
      | some i =>
        dsimp only
        rw [World.readEntry_writeEntry hopen, if_neg]
        rintro ⟨rfl, hname⟩
        -- a handle is held for one place only
        exact hapart ⟨⟨key, key', hkey, hother, hregistered.sameKey_of_held hheld hheld'⟩, hname⟩

/-! ## Changes of files that leave an archive alone -/

/-- A change of files that leaves alone what a path leads to, and the archive that a store has
opened there. -/
structure Store.Leaves (store : Store) (path : String) (world world' : World) : Prop where
  handles : world'.handles = world.handles
  way : Unchanged (world.files.way path) world.files world'.files
  archive : ∀ key, Store.key world.files path = .ok key →
    Unchanged (world.files.way key) world.files world'.files
  data : ∀ key id source, Store.key world.files path = .ok key → store.held? key = some id →
    (world.handle id).source = some source →
      world'.files.data source.file = world.files.data source.file

theorem Store.Leaves.handle_eq (h : store.Leaves path world world') (id : HandleId) :
    world'.handle id = world.handle id := by
  rw [World.handle, World.handle, h.handles]

theorem Store.Leaves.key_eq (h : store.Leaves path world world') (hfiles : WellFormed world.files) :
    Store.key world'.files path = Store.key world.files path :=
  h.way.key_eq hfiles fun _ hl => hl

theorem Store.Leaves.openAt_eq (h : store.Leaves path world world')
    (hfiles : WellFormed world.files) (hkey : Store.key world.files path = .ok key) :
    Handle.openAt world'.files key = Handle.openAt world.files key :=
  (h.archive key hkey).openAt_eq hfiles fun _ hl => hl

theorem Handle.read_congr {handle : Handle} {fs fs' : FileSystem}
    (h : ∀ source, handle.source = some source → fs'.data source.file = fs.data source.file)
    (entry : String) : handle.read fs' entry = handle.read fs entry := by
  rw [read, read]
  cases hsource : handle.source with
  | none => rfl
  | some source => simp only [Source.bytes, h source hsource]

/-- The file of an archive that is opened has the same data. -/
theorem Store.Leaves.read_eq (h : store.Leaves path world world')
    (hkey : Store.key world.files path = .ok key) {handle : Handle}
    (hopen : Handle.openAt world.files key = .ok handle) (entry : String) :
    handle.read world'.files entry = handle.read world.files entry := by
  refine Handle.read_congr (fun source hsource => ?_) entry
  obtain ⟨l, hway, hnode⟩ := exists_mem_way_of_openAt hopen hsource
  exact ((h.archive key hkey).same l hway).data _ hnode

/-- Reads through the path are answered as before. -/
theorem Store.Leaves.answer_eq (h : store.Leaves path world world')
    (hfiles : WellFormed world.files) (entry : String) :
    store.answer world' path entry = store.answer world path entry := by
  rw [Store.answer_eq, Store.answer_eq, h.key_eq hfiles]
  cases hkey : Store.key world.files path with
  | error e => rfl
  | ok key =>
    dsimp only [Except.bind]
    cases hheld : store.held? key with
    | some id =>
      dsimp only
      rw [World.readEntry, World.readEntry, h.handle_eq]
      exact Handle.read_congr (fun source hsource => h.data key id source hkey hheld hsource) entry
    | none =>
      dsimp only
      rw [h.openAt_eq hfiles hkey]
      cases hopen : Handle.openAt world.files key with
      | error e => rfl
      | ok handle => exact h.read_eq hkey hopen entry

/-- Asked for the archive, the store gives the same handle as before. -/
theorem Store.Leaves.asked (h : store.Leaves path world world') (hfiles : WellFormed world.files) :
    (store.handle world' path).1 = (store.handle world path).1
      ∧ (store.handle world' path).2.1.handles = (store.handle world path).2.1.handles
      ∧ (store.handle world' path).2.2 = (store.handle world path).2.2 := by
  rw [Store.handle, Store.handle, h.key_eq hfiles]
  cases hkey : Store.key world.files path with
  | error e => exact ⟨rfl, h.handles, rfl⟩
  | ok key =>
    dsimp only
    cases (store.find? key).bind Cell.handle with
    | some id => exact ⟨rfl, h.handles, rfl⟩
    | none =>
      dsimp only
      rw [World.openArchive, World.openArchive, h.openAt_eq hfiles hkey]
      cases Handle.openAt world.files key with
      | error e => exact ⟨rfl, h.handles, rfl⟩
      | ok handle =>
        dsimp only [World.record]
        rw [h.handles]
        exact ⟨rfl, rfl, rfl⟩

end Reline.Archive
