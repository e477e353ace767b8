/-
  Reline.Proofs.Saving

  What saving one unit does, whatever fails.

  The text and the lines of a unit fail apart from each other. Lines are remapped
  if the flat list is a mapping, the class is read from the archive and it is a
  class file: then nothing else can go wrong. The class reads as remapped
  afterwards, and nothing else reads otherwise than before. If one of the three
  fails, nothing is staged, and nothing reads otherwise than before.

  There is one exception to this, which is not as intended. A unit may open the
  archive, and a path that leads nowhere but has the names of the archive, such as
  one with a slash behind it, is answered by the handle from then on. The
  statements say so: reads are kept except for paths that stray.

  Main statement: `saveUnit_contained`.
-/

import Reline.Proofs.Archive.Answers
import Reline.Proofs.Batch.Fold

namespace Reline.Saver

open Archive FileSystem

variable {store store' : Store} {world world' : World} {path : String} {unit : ClassUnit}
  {entry : String} {flat : List Int} {patched : Bytes}

/-! ## Remapping lines -/

/-- Whether a flat list makes new bytes of an entry that a store answers. -/
def Patchable (store : Store) (world : World) (path entry : String) (flat : List Int)
    (patched : Bytes) : Prop :=
  ∃ m bytes report, LineMapping.ofFlat flat = .ok m ∧ store.answer world path entry = .ok bytes
    ∧ remapClass m bytes = .ok (patched, report)

/-- The ways in which remapping the lines of a class ends. -/
inductive Patching (store : Store) (world : World) (path entry : String) (flat : List Int) :
    Store → World → Except PatchError Unit → Prop where
  /-- The flat list is no mapping. -/
  | unmapped {e : MappingError} (mapping : LineMapping.ofFlat flat = .error e) :
    Patching store world path entry flat store world (.error (.mapping e))
  /-- The class could not be read, or is none. -/
  | failed {m : LineMapping} {store' : Store} {asked : World} {result : Except Error HandleId}
    {e : PatchError} (mapping : LineMapping.ofFlat flat = .ok m)
    (asks : store.Asks world path store' asked result)
    (unpatched : ∀ patched, ¬ Patchable store world path entry flat patched) :
    Patching store world path entry flat store' asked (.error e)
  /-- The remapped class was staged. -/
  | staged {patched : Bytes} {store' : Store} {asked : World} {id : HandleId} {text : String}
    (patchable : Patchable store world path entry flat patched)
    (asks : store.Asks world path store' asked (.ok id))
    (opened : (asked.handle id).source ≠ none) :
    Patching store world path entry flat store'
      ((asked.writeEntry id entry patched).1.record .debug .saver text) (.ok ())

theorem writeEntry_eq_ok {id : HandleId} (hopen : (world.handle id).source ≠ none)
    (entry : String) (bytes : Bytes) : (world.writeEntry id entry bytes).2 = .ok () := by
  obtain ⟨source, hsource⟩ := Option.ne_none_iff_exists'.1 hopen
  rw [World.writeEntry, Handle.write, hsource]

/-- Once a class was read and remapped, it can be written. -/
theorem patching_patchLines (hunstaged : Unstaged world) (store : Store) (path entry : String)
    (flat : List Int) :
    Patching store world path entry flat (patchLines store world path entry flat).1
      (patchLines store world path entry flat).2.1 (patchLines store world path entry flat).2.2 := by
  rw [patchLines]
  cases hmapping : LineMapping.ofFlat flat with
  | error e => exact .unmapped hmapping
  | ok m =>
    have hasks := store.asks world path
    have hanswer : store.answer world path entry = (store.read world path entry).2.2 := rfl
    dsimp only
    rw [Store.read] at hanswer ⊢
    -- the read asks for the handle first, and the write finds it again
    generalize store.handle world path = asked at hasks hanswer ⊢
    obtain ⟨store', asked, e | id⟩ := asked
    · refine .failed hmapping hasks ?_
      rintro patched ⟨-, bytes, -, -, hread, -⟩
      cases hanswer.symm.trans hread
    · dsimp only at hasks hanswer ⊢
      cases hread : asked.readEntry id entry with
      | error e =>
        refine .failed hmapping hasks ?_
        rintro patched ⟨-, bytes, -, -, hread', -⟩
        cases (hanswer.trans hread).symm.trans hread'
      | ok bytes =>
        dsimp only
        cases hremap : remapClass m bytes with
        | error e =>
          refine .failed hmapping hasks ?_
          rintro patched ⟨m', bytes', report, hmapping', hread', hremap'⟩
          cases hmapping.symm.trans hmapping'
          cases (hanswer.trans hread).symm.trans hread'
          cases hremap.symm.trans hremap'
        | ok pair =>
          obtain ⟨patched, report⟩ := pair
          have hopen := source_ne_none_of_readEntry (hasks.unstaged hunstaged) hread
          have hwrite := writeEntry_eq_ok hopen entry patched
          dsimp only
          rw [Store.write, hasks.handle_again]
          dsimp only
          rw [hwrite]
          exact .staged ⟨m, bytes, report, hmapping, hanswer.trans hread, hremap⟩ hasks hopen

/-- Remapping lines changes no file. -/
theorem Patching.files_eq {result : Except PatchError Unit}
    (h : Patching store world path entry flat store' world' result) :
    world'.files = world.files := by
  cases h with
  | unmapped mapping => rfl
  | failed mapping asks unpatched => exact asks.files_eq
  | staged patchable asks opened => exact (files_writeEntry ..).trans asks.files_eq

/-- Whether the lines were remapped is settled by the mapping, what is read and what it is made
into. -/
theorem Patching.ok_iff {result : Except PatchError Unit}
    (h : Patching store world path entry flat store' world' result) :
    result = .ok () ↔ ∃ patched, Patchable store world path entry flat patched := by
  cases h with
  | unmapped mapping =>
    refine ⟨nofun, ?_⟩
    rintro ⟨-, m, -, -, mapping', -⟩
    cases mapping.symm.trans mapping'
  | failed mapping asks unpatched =>
    refine ⟨nofun, ?_⟩
    rintro ⟨patched, hpatched⟩
    exact absurd hpatched (unpatched patched)
  | staged patchable asks opened => exact ⟨fun _ => ⟨_, patchable⟩, fun _ => rfl⟩

theorem Patchable.unique {patched' : Bytes} (h : Patchable store world path entry flat patched)
    (h' : Patchable store world path entry flat patched') : patched' = patched := by
  obtain ⟨m, bytes, report, hmapping, hread, hremap⟩ := h
  obtain ⟨m', bytes', report', hmapping', hread', hremap'⟩ := h'
  cases hmapping.symm.trans hmapping'
  cases hread.symm.trans hread'
  cases hremap.symm.trans hremap'
  rfl

/-- Lines that were remapped are read under every path of the archive, and nothing else is read
otherwise than before. -/
theorem Patching.answer_of_patchable {result : Except PatchError Unit}
    (h : Patching store world path entry flat store' world' result)
    (hregistered : Registered store world)
    (hpatchable : Patchable store world path entry flat patched)
    (other name : String) :
    (SamePlace world.files path other ∧ normalizeEntry name = normalizeEntry entry →
        store'.answer world' other name = .ok patched)
      ∧ (¬ (SamePlace world.files path other ∧ normalizeEntry name = normalizeEntry entry) →
        store.KeepsAnswer world path store' world' other name) := by
  cases h with
  | unmapped mapping =>
    obtain ⟨m, -, -, mapping', -⟩ := hpatchable
    cases mapping.symm.trans mapping'
  | failed mapping asks unpatched => exact absurd hpatchable (unpatched patched)
  | @staged patched' store' asked id text patchable asks opened =>
    cases hpatchable.unique patchable
    obtain ⟨key, hkey, hheld⟩ := asks.held_of_ok
    have hasked := asks.keepsAnswer hregistered other name
    rw [← asks.files_eq] at hkey
    obtain ⟨hwritten, hothers⟩ :=
      Store.answer_writeEntry (hregistered.of_asks asks) hkey hheld opened
      entry patched other name
    rw [asks.files_eq] at hwritten hothers
    rw [← store'.answer_record _ .debug .saver text] at hwritten hothers
    exact ⟨hwritten, fun hapart => ⟨fun hstrays => (hothers hapart).trans (hasked.strayed hstrays),
      fun hstrays => (hothers hapart).trans (hasked.kept hstrays)⟩⟩

/-- Where lines were not remapped, nothing is staged. At most the archive was opened. -/
theorem Patching.unchanged_of_not_patchable {result : Except PatchError Unit}
    (h : Patching store world path entry flat store' world' result)
    (hregistered : Registered store world)
    (hunpatched : ∀ patched, ¬ Patchable store world path entry flat patched) :
    (world'.handles = world.handles
        ∨ ∃ handle : Handle, world'.handles = world.handles.push handle ∧ handle.staged = ∅)
      ∧ ((∃ m, LineMapping.ofFlat flat = .ok m) →
        ∀ other name, store.KeepsAnswer world path store' world' other name)
      ∧ ((∃ e, LineMapping.ofFlat flat = .error e) → store' = store ∧ world' = world) := by
  cases h with
  | unmapped mapping =>
    refine ⟨.inl rfl, ?_, fun _ => ⟨rfl, rfl⟩⟩
    rintro ⟨m, mapping'⟩
    cases mapping.symm.trans mapping'
  | failed mapping asks unpatched =>
    refine ⟨asks.handles_cases, fun _ => asks.keepsAnswer hregistered, ?_⟩
    rintro ⟨e, mapping'⟩
    cases mapping.symm.trans mapping'
  | staged patchable asks opened => exact absurd patchable (hunpatched _)

/-! ## Saving units -/

/-- What becomes of lines depends on the archive, the store and the handles alone. -/
theorem patchLines_of_leaves (h : store.Leaves path world world')
    (hfiles : WellFormed world.files) (entry : String) (flat : List Int) :
    (patchLines store world' path entry flat).1 = (patchLines store world path entry flat).1
      ∧ (patchLines store world' path entry flat).2.1.handles
        = (patchLines store world path entry flat).2.1.handles
      ∧ (patchLines store world' path entry flat).2.2
        = (patchLines store world path entry flat).2.2 := by
  rw [patchLines, patchLines]
  cases LineMapping.ofFlat flat with
  | error e => exact ⟨rfl, h.handles, rfl⟩
  | ok m =>
    obtain ⟨hstore, hhandles, hresult⟩ := h.asked hfiles
    have hanswer := h.answer_eq hfiles entry
    have hasks := store.asks world path
    have hasks' := store.asks world' path
    dsimp only
    rw [Store.answer, Store.answer, Store.read, Store.read] at hanswer
    rw [Store.read, Store.read]
    -- the store is asked in both worlds, and gives the same handle
    generalize store.handle world path = asked at hstore hhandles hresult hanswer hasks ⊢
    generalize store.handle world' path = asked' at hstore hhandles hresult hanswer hasks' ⊢
    obtain ⟨store₁, world₁, result⟩ := asked
    obtain ⟨store₁', world₁', result'⟩ := asked'
    cases hstore
    cases hresult
    cases result with
    | error e => exact ⟨rfl, hhandles, rfl⟩
    | ok id =>
      dsimp only at hhandles hanswer hasks hasks' ⊢
      rw [hanswer]
      cases world₁.readEntry id entry with
      | error e => exact ⟨rfl, hhandles, rfl⟩
      | ok bytes =>
        dsimp only
        cases remapClass m bytes with
        | error e => exact ⟨rfl, hhandles, rfl⟩
        | ok pair =>
          have hhandle : world₁'.handle id = world₁.handle id := by
            rw [World.handle, World.handle, hhandles]
          dsimp only
          rw [Store.write, Store.write, hasks.handle_again, hasks'.handle_again]
          dsimp only
          rw [World.writeEntry, World.writeEntry, hhandle]
          cases (world₁.handle id).write entry pair.1 with
          | error e => exact ⟨rfl, hhandles, rfl⟩
          | ok handle =>
            dsimp only [World.record]
            rw [hhandles]
            exact ⟨rfl, rfl, rfl⟩

theorem saveLines_of_leaves (h : store.Leaves path world world')
    (hfiles : WellFormed world.files) (unit : ClassUnit) :
    (saveLines store world' path unit).1 = (saveLines store world path unit).1
      ∧ (saveLines store world' path unit).2.1.handles
        = (saveLines store world path unit).2.1.handles
      ∧ (saveLines store world' path unit).2.2 = (saveLines store world path unit).2.2 := by
  rw [saveLines, saveLines]
  rcases unit.mapping with - | (- | ⟨line, flat⟩)
  · exact ⟨rfl, h.handles, rfl⟩
  · exact ⟨rfl, h.handles, rfl⟩
  · obtain ⟨hstore, hhandles, hresult⟩ :=
      patchLines_of_leaves h hfiles unit.classEntry (line :: flat)
    dsimp only
    generalize patchLines store world path unit.classEntry (line :: flat) = patching
      at hstore hhandles hresult ⊢
    generalize patchLines store world' path unit.classEntry (line :: flat) = patching'
      at hstore hhandles hresult ⊢
    obtain ⟨store₁, world₁, result⟩ := patching
    obtain ⟨store₁', world₁', result'⟩ := patching'
    cases hstore
    cases hresult
    cases result with
    | error e => exact ⟨rfl, hhandles, rfl⟩
    | ok done => exact ⟨rfl, hhandles, rfl⟩

/-- A unit with a mapping remaps lines; a failure is logged. -/
theorem exists_patching_of_saveLines (hunstaged : Unstaged world) (store : Store)
    (hmapping : unit.mapping = some flat) (hflat : flat ≠ []) (path : String) :
    ∃ patchedWorld result,
      Patching store world path unit.classEntry flat (saveLines store world path unit).1
          patchedWorld result
        ∧ (saveLines store world path unit).2.1.files = patchedWorld.files
        ∧ (saveLines store world path unit).2.1.handles = patchedWorld.handles
        ∧ (saveLines store world path unit).2.2
          = if result = .ok () then .persisted else .failed := by
  have hpatching := patching_patchLines hunstaged store path unit.classEntry flat
  obtain ⟨line, rest, rfl⟩ := List.exists_cons_of_ne_nil hflat
  rw [saveLines, hmapping]
  dsimp only
  generalize patchLines store world path unit.classEntry (line :: rest) = patching at hpatching ⊢
  obtain ⟨store', world', e | done⟩ := patching
  · exact ⟨world', .error e, hpatching, rfl, rfl, rfl⟩
  · exact ⟨world', .ok (), hpatching, rfl, rfl, rfl⟩

/-- A unit without a mapping, or with an empty one, is skipped. -/
theorem saveLines_of_unmapped (hmapping : unit.mapping = none ∨ unit.mapping = some [])
    (store : Store) (world : World) (path : String) :
    saveLines store world path unit = (store, world, .skipped) := by
  rw [saveLines]
  rcases hmapping with hnone | hempty
  · rw [hnone]
  · rw [hempty]

theorem files_saveLines (hunstaged : Unstaged world) (store : Store) (path : String)
    (unit : ClassUnit) : (saveLines store world path unit).2.1.files = world.files := by
  by_cases hunmapped : unit.mapping = none ∨ unit.mapping = some []
  · rw [saveLines_of_unmapped hunmapped]
  · rw [not_or] at hunmapped
    obtain ⟨flat, hmapping⟩ := Option.ne_none_iff_exists'.1 hunmapped.1
    have hflat : flat ≠ [] := fun hempty => hunmapped.2 (hmapping.trans (congrArg some hempty))
    obtain ⟨patchedWorld, result, hpatching, hfiles, -⟩ :=
      exists_patching_of_saveLines hunstaged store hmapping hflat path
    exact hfiles.trans hpatching.files_eq

section Lines

variable {lines : LineOutcome}

/-- Lines are persisted if they can be, and else saving them failed. -/
theorem saveLines_outcome (hunstaged : Unstaged world) (hmapping : unit.mapping = some flat)
    (hflat : flat ≠ []) (hlines : saveLines store world path unit = (store', world', lines)) :
    (lines = .persisted ↔ ∃ patched, Patchable store world path unit.classEntry flat patched)
      ∧ ((∀ patched, ¬ Patchable store world path unit.classEntry flat patched) →
        lines = .failed) := by
  obtain ⟨patchedWorld, result, hpatching, -, -, houtcome⟩ :=
    exists_patching_of_saveLines hunstaged store hmapping hflat path
  rw [hlines] at houtcome
  dsimp only at houtcome
  rw [← hpatching.ok_iff, houtcome]
  refine ⟨?_, fun hunpatched => if_neg fun hok => ?_⟩
  · split
    case isTrue hok => exact ⟨fun _ => hok, fun _ => rfl⟩
    case isFalse hfailed => exact ⟨nofun, fun hok => absurd hok hfailed⟩
  · obtain ⟨patched, hpatchable⟩ := hpatching.ok_iff.1 hok
    exact hunpatched patched hpatchable

/-- Lines that can be persisted are read then, and nothing else is read otherwise than before. -/
theorem saveLines_of_patchable (hunstaged : Unstaged world) (hregistered : Registered store world)
    (hmapping : unit.mapping = some flat) (hflat : flat ≠ [])
    (hlines : saveLines store world path unit = (store', world', lines))
    (hpatchable : Patchable store world path unit.classEntry flat patched) (other name : String) :
    (SamePlace world.files path other ∧ normalizeEntry name = normalizeEntry unit.classEntry →
        store'.answer world' other name = .ok patched)
      ∧ (¬ (SamePlace world.files path other
          ∧ normalizeEntry name = normalizeEntry unit.classEntry) →
        store.KeepsAnswer world path store' world' other name) := by
  obtain ⟨patchedWorld, result, hpatching, hfiles, hhandles, -⟩ :=
    exists_patching_of_saveLines hunstaged store hmapping hflat path
  rw [hlines] at hpatching hfiles hhandles
  obtain ⟨hsame, hothers⟩ := hpatching.answer_of_patchable hregistered hpatchable other name
  exact ⟨fun hplace =>
      (Store.answer_eq_of_eq hfiles hhandles store' other name).trans (hsame hplace),
    fun hapart => (hothers hapart).of_eq hfiles hhandles⟩

/-- Lines that cannot be persisted leave nothing staged. At most the archive was opened. -/
theorem saveLines_of_not_patchable (hunstaged : Unstaged world)
    (hregistered : Registered store world) (hmapping : unit.mapping = some flat) (hflat : flat ≠ [])
    (hlines : saveLines store world path unit = (store', world', lines))
    (hunpatched : ∀ patched, ¬ Patchable store world path unit.classEntry flat patched) :
    (world'.handles = world.handles
        ∨ ∃ handle : Handle, world'.handles = world.handles.push handle ∧ handle.staged = ∅)
      ∧ ((∃ m, LineMapping.ofFlat flat = .ok m) →
        ∀ other name, store.KeepsAnswer world path store' world' other name)
      ∧ ((∃ e, LineMapping.ofFlat flat = .error e) →
        store' = store ∧ world'.handles = world.handles) := by
  obtain ⟨patchedWorld, result, hpatching, hfiles, hhandles, -⟩ :=
    exists_patching_of_saveLines hunstaged store hmapping hflat path
  rw [hlines] at hpatching hfiles hhandles
  dsimp only at hhandles
  obtain ⟨hopened, hkeeps, hsame⟩ := hpatching.unchanged_of_not_patchable hregistered hunpatched
  rw [hhandles]
  refine ⟨hopened, fun hvalid other name => (hkeeps hvalid other name).of_eq hfiles hhandles,
    fun hinvalid => ?_⟩
  obtain ⟨hstore, hworld⟩ := hsame hinvalid
  exact ⟨hstore, by rw [hworld]⟩

end Lines

variable {σ : Type} [TextSink σ] {sink sink' : σ} {outcome : SaveOutcome} {events : List Event}

/-- The world after the text of a unit was offered to a sink. -/
def offered (sink : σ) (world : World) (unit : ClassUnit) : World :=
  (saveText sink world unit).2.1

theorem saveText_iff (sink : σ) (world : World) (unit : ClassUnit) :
    (saveText sink world unit).2.2 = true
      ↔ (TextSink.save sink world unit.qualifiedName unit.entryName unit.content).2.2 = .ok () := by
  rw [saveText]
  generalize TextSink.save sink world unit.qualifiedName unit.entryName unit.content = answer
  obtain ⟨sink', world', e | done⟩ := answer
  · refine iff_of_false Bool.false_ne_true fun hok => ?_
    contradiction
  · exact iff_of_true rfl rfl

/-- What saving a unit comes to, whichever part of it fails, when no one else uses the store and the
sink opens and closes no handle. Reads are compared with those right after the text was offered to
the sink; where the sink leaves an archive alone, these are the reads before. -/
theorem saveUnit_contained {files : FileSystem} (hfiles : WellFormed files)
    (hruns : Runs .empty (.ofFiles files) events store world)
    (hkept : (offered sink world unit).handles = world.handles)
    (hoffered : WellFormed (offered sink world unit).files)
    (hsave : saveUnit path sink store world unit = (sink', store', world', outcome)) :
    (outcome.textSaved = true
        ↔ (TextSink.save sink world unit.qualifiedName unit.entryName unit.content).2.2 = .ok ())
      ∧ (store.Leaves path world (offered sink world unit) →
        store' = (saveLines store world path unit).1
          ∧ world'.handles = (saveLines store world path unit).2.1.handles
          ∧ outcome.lines = (saveLines store world path unit).2.2)
      ∧ (∀ other, store.Leaves other world (offered sink world unit) → ∀ name,
        store.answer (offered sink world unit) other name = store.answer world other name)
      ∧ (unit.mapping = none ∨ unit.mapping = some [] →
        outcome.lines = .skipped ∧ store' = store ∧ world' = offered sink world unit)
      ∧ (∀ flat, unit.mapping = some flat → flat ≠ [] →
        (outcome.lines = .persisted ↔ ∃ patched,
            Patchable store (offered sink world unit) path unit.classEntry flat patched)
          ∧ (∀ patched, Patchable store (offered sink world unit) path unit.classEntry flat patched →
            ∀ other name,
              (SamePlace (offered sink world unit).files path other
                  ∧ normalizeEntry name = normalizeEntry unit.classEntry →
                store'.answer world' other name = .ok patched)
                ∧ (¬ (SamePlace (offered sink world unit).files path other
                    ∧ normalizeEntry name = normalizeEntry unit.classEntry) →
                  store.KeepsAnswer (offered sink world unit) path store' world' other name))
          ∧ ((∀ patched,
              ¬ Patchable store (offered sink world unit) path unit.classEntry flat patched) →
            outcome.lines = .failed
              ∧ (world'.handles = world.handles
                ∨ ∃ handle : Handle, world'.handles = world.handles.push handle ∧ handle.staged = ∅)
              ∧ ((∃ m, LineMapping.ofFlat flat = .ok m) → ∀ other name,
                store.KeepsAnswer (offered sink world unit) path store' world' other name)
              ∧ ((∃ e, LineMapping.ofFlat flat = .error e) →
                store' = store ∧ world'.handles = world.handles)))
      ∧ world'.files = (offered sink world unit).files
      ∧ ∀ other key key', (offered sink world unit).files.canonical path = .ok key →
        (offered sink world unit).files.canonical other = .ok key' →
          ¬ store.Strays (offered sink world unit).files path other := by
  have htext := saveText_iff sink world unit
  have hbefore := (hruns.sound (sound_ofFiles hfiles)).files
  have hregistered : Registered store (offered sink world unit) :=
    (hruns.registered (registered_ofFiles files)).of_remains (.of_handles_eq hkept)
  have hunstaged : Unstaged (offered sink world unit) :=
    (Remains.of_handles_eq hkept).unstaged hruns.tracks.unstaged
  have hstrays (other key key' : String) := @Store.not_strays_of_canonical path other store
    (offered sink world unit).files hoffered key key'
  rw [saveUnit] at hsave
  rw [offered] at *
  -- what became of the text is known only by the world and the answer that it left
  generalize saveText sink world unit = texted at *
  obtain ⟨sink₁, offered, textSaved⟩ := texted
  dsimp only at *
  have hfiles' := files_saveLines hunstaged store path unit
  rcases hlines : saveLines store offered path unit with ⟨store₁, world₁, lines⟩
  rw [hlines] at hsave hfiles'
  cases hsave
  refine ⟨htext, fun hleaves => ?_, fun other hleaves name => hleaves.answer_eq hbefore name,
    fun hmapping => ?_, fun flat hmapping hflat => ?_, hfiles', hstrays⟩
  · obtain ⟨hstore, hhandles, houtcome⟩ := saveLines_of_leaves hleaves hbefore unit
    rw [hlines] at hstore hhandles houtcome
    exact ⟨hstore, hhandles, houtcome⟩
  · rw [saveLines_of_unmapped hmapping] at hlines
    cases hlines
    exact ⟨rfl, rfl, rfl⟩
  · obtain ⟨hpersisted, hfailed⟩ := saveLines_outcome hunstaged hmapping hflat hlines
    refine ⟨hpersisted, fun patched hpatchable =>
      saveLines_of_patchable hunstaged hregistered hmapping hflat hlines hpatchable,
      fun hunpatched => ⟨hfailed hunpatched, ?_⟩⟩
    rw [← hkept]
    exact saveLines_of_not_patchable hunstaged hregistered hmapping hflat hlines hunpatched

/-- A unit for a class that is missing. -/
def missingUnit : ClassUnit := ⟨"g", "g.java", "class g", some [1, 2]⟩

set_option maxRecDepth 2000 in
theorem answer_missingUnit :
    (Store.empty.answer Batch.classWorld "lib.jar" "g.class").toBool = false
      ∧ Store.empty.answer Batch.classWorld "lib.jar" "f.class" = .ok ClassFile.twoLines
      ∧ (Store.empty.answer Batch.classWorld "lib.jar/" "f.class").toBool = false
      ∧ Store.key Batch.classWorld.files "lib.jar/" = .ok "/lib.jar/"
      ∧ Store.sameKey "/lib.jar" "/lib.jar/" = true := by
  decide +kernel

/-- The unit fails, and the archive reads as before. But a path with a slash behind it, which could
not be opened, leads to the archive then. -/
theorem saveUnit_contained_missingUnit :
    ∃ sink store world, saveUnit "lib.jar" (⟨[]⟩ : Batch.Memory) .empty Batch.classWorld missingUnit
        = (sink, store, world, ⟨true, .failed⟩)
      ∧ (∀ name, store.answer world "lib.jar" name
        = Store.empty.answer Batch.classWorld "lib.jar" name)
      ∧ (Store.empty.answer Batch.classWorld "lib.jar/" "f.class").toBool = false
      ∧ store.answer world "lib.jar/" "f.class" = .ok ClassFile.twoLines := by
  obtain ⟨hmissing, hclass, hslash, hkey, hsame⟩ := answer_missingUnit
  have hisolated := Batch.isolated_classWorld
  have hfiles := hisolated.archived.wellFormed
  have hpath : Store.key Batch.classWorld.files "lib.jar" = .ok "/lib.jar" := hisolated.key
  have hentry : missingUnit.classEntry = "g.class" := by decide +kernel
  have hoffered :
      offered (⟨[]⟩ : Batch.Memory) Batch.classWorld missingUnit = Batch.classWorld := rfl
  rcases hsave : saveUnit "lib.jar" (⟨[]⟩ : Batch.Memory) .empty Batch.classWorld missingUnit
    with ⟨sink, store, world, textSaved, lines⟩
  have hruns : Runs .empty (.ofFiles Batch.classWorld.files) [] .empty Batch.classWorld := .start
  obtain ⟨htext, -, -, -, hlines, -⟩ := saveUnit_contained hfiles hruns (by rw [hoffered])
    (by rw [hoffered]; exact hfiles) hsave
  rw [hoffered] at hlines
  obtain ⟨-, -, hfailed⟩ := hlines [1, 2] rfl (by decide)
  obtain ⟨hlines, -, hkept, -⟩ := hfailed <| by
    rintro patched ⟨m, bytes, report, -, hread, -⟩
    rw [hentry] at hread
    rw [hread] at hmissing
    exact absurd hmissing.symm Bool.false_ne_true
  have hkept := hkept ⟨_, rfl⟩
  have hstrays : Store.empty.Strays Batch.classWorld.files "lib.jar" "lib.jar/" :=
    ⟨"/lib.jar", "/lib.jar/", _, hpath, hkey, hsame, by decide, rfl, hisolated.archived.opens⟩
  cases hlines
  cases htext.2 rfl
  refine ⟨sink, store, world, rfl,
    fun name => (hkept "lib.jar" name).kept (Store.not_strays_self _ _ _), hslash, ?_⟩
  rw [(hkept "lib.jar/" "f.class").strayed hstrays, hclass]

end Reline.Saver
