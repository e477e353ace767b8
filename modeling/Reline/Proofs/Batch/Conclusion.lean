/-
  Reline.Proofs.Batch.Conclusion

  How a batch ends, whatever became of its units.

  Units may be many, for the same classes and worked on in any order; each whose
  lines were remapped has written what it made of its class as it read it. When all
  are done the sink is closed, and then the store, whether or not the sink could be
  closed. By then the archive may have been removed or replaced by the sink. If its
  staged writes cannot be put into its place, that is reported before all else,
  and nothing is changed; otherwise what stands there is the patched archive, even
  if the sink has failed.

  Main statement: `conclude_worked`.
-/

import Reline.Proofs.Archive.Atomicity
import Reline.Proofs.Archive.Independence
import Reline.Proofs.Batch.Calls

namespace Reline.Archive

open FileSystem

variable {fs : FileSystem} {path : String} {source : Source} {staged : OrderedTable String Bytes}

/-! ## An archive that may have been replaced -/

/-- Whether nothing can be found at a path. -/
def Vacant (fs : FileSystem) (path : String) : Prop :=
  ∀ l node slash, fs.resolve .entry path ≠ .ok (.found l node slash)

/-- A file system in which a new archive stands at the place that a path named before: a file that
was written of items with a listing. If these reopen, the archive has this listing, and the path
opens it unless a link stood at the place. -/
def Renewed (fs fs' : FileSystem) (path : String) (comment : Bytes)
    (listing : List (String × Except Zip.Error Bytes)) : Prop :=
  ∃ there id items, NamesPlace fs path there ∧ fs'.node? there = some (.file id)
    ∧ (fs'.data id).bytes = (Zip.encode items comment).toArray
    ∧ items.map (fun item => (item.name, item.content)) = listing
    ∧ (Zip.Reopens items comment → ∃ directory length,
      Zip.Directory.read (fs'.data id).bytes = .ok directory
        ∧ Source.listing ⟨id, length, directory⟩ fs' = listing
        ∧ ((∀ goal, fs.node? there ≠ some (.link goal)) →
          Handle.openAt fs' path = .ok ⟨path, some ⟨id, length, directory⟩, ∅⟩))

/-- Writes that cannot be put into an archive's place leave everything as it was. -/
theorem restored_of_flush (habsolute : Path.isAbsolute path = true)
    (hfree : Vacant fs (Handle.temporaryPath path)) {e : Error}
    (hflush : (Handle.flush fs source staged path).2 = .error e) :
    Restored fs (Handle.flush fs source staged path).1 := by
  obtain ⟨now, hnow, hfinishes⟩ := Handle.exists_underway_of_flush fs source staged path
  rw [hflush] at hfinishes
  exact hfinishes.restored habsolute hfree hnow

/-- Writes to listed names that are put into an archive's place are in the archive that stands there
then, whatever stood there before. -/
theorem renewed_of_flush (hfiles : WellFormed fs) (habsolute : Path.isAbsolute path = true)
    (hfree : Vacant fs (Handle.temporaryPath path)) (hfile : source.file < fs.files.size)
    (hlength : source.length = (fs.data source.file).bytes.size)
    (hnodup : (source.directory.entries.map Zip.Entry.name).Nodup)
    (hlisted : ∀ n bytes, staged.get? n = some bytes →
      n ∈ source.directory.entries.map Zip.Entry.name)
    (hflush : (Handle.flush fs source staged path).2 = .ok ()) :
    Renewed fs (Handle.flush fs source staged path).1 path source.directory.comment
      ((source.listing fs).map (overlay staged)) := by
  obtain ⟨placed, dir, last, hnames, hplacing, hbecomes⟩ :=
    exists_placing_of_flush hfiles habsolute hfile hfree hflush
  obtain ⟨id, hnode, hdata⟩ := hbecomes.exists_node?
  obtain ⟨items, hitems, hbytes⟩ := Handle.rebuilt_eq_ok_iff.1 hplacing.rebuilt
  rw [bytes_of_length hlength] at hitems
  -- each item has what was staged for its name, or what the archive had
  have hcontents : items.map (fun item => (item.name, item.content))
      = (source.listing fs).map (overlay staged) := by
    rw [Source.listing, List.map_map]
    exact Handle.map_content_rebuiltItems hitems hnodup hlisted
  have harray : placed.2.bytes = (Zip.encode items source.directory.comment).toArray := by
    rw [hbytes, Array.toArray_toList]
  refine ⟨placed.1, id, items, hnames, hnode, ?_, hcontents, ?_⟩
  · rw [hdata]
    exact harray
  · rintro ⟨entries, hread, hpresents⟩
    rw [← harray, ← hdata] at hread hpresents
    refine ⟨_, ((Handle.flush fs source staged path).1.data id).bytes.size, hread, ?_,
      fun hlink => ?_⟩
    · rw [← hcontents]
      exact map_read_of_presents hpresents
    · rw [Handle.openAt_eq_ok_iff]
      refine ⟨id, _, hbecomes.openFile hplacing habsolute hlink hnode, ?_, hread, rfl⟩
      rw [hdata]
      exact hplacing.medium

end Reline.Archive

namespace Reline.Batch

open Archive FileSystem

/-! ## Patches -/

/-- Whether the mapping of a unit makes bytes of others. -/
def Remaps (unit : ClassUnit) (old new : Bytes) : Prop :=
  ∃ line flat m report, unit.mapping = some (line :: flat)
    ∧ LineMapping.ofFlat (line :: flat) = .ok m ∧ remapClass m old = .ok (new, report)

/-- A unit and what it has made of its class. -/
abbrev Patch := ClassUnit × Bytes

/-- The writes of patches. -/
def patchWrites (path : String) (patches : List Patch) : List Write :=
  patches.map fun patch => ⟨path, patch.1.classEntry, patch.2⟩

/-- What an archive shows with patches over its contents. -/
def patchedBy (contents : Contents) (path : String) (patches : List Patch) : Contents :=
  contents.overlaid (stage ∅ (patchWrites path patches))

/-- Whether a unit makes bytes of its class as it is after some of the patches. -/
def Makes (contents : Contents) (path : String) (patches : List Patch) (unit : ClassUnit)
    (bytes : Bytes) : Prop :=
  ∃ before old, before <+: patches
    ∧ patchedBy contents path before (normalizeEntry unit.classEntry) = some (.ok old)
    ∧ Remaps unit old bytes

/-- Patches that were made one after the other, each of what its unit has read at some time
before. -/
inductive Patches (contents : Contents) (path : String) : List Patch → Prop where
  | nil : Patches contents path []
  | concat {patches : List Patch} {unit : ClassUnit} {bytes : Bytes}
    (before : Patches contents path patches) (makes : Makes contents path patches unit bytes) :
    Patches contents path (patches ++ [(unit, bytes)])

variable {path : String} {location : Location} {source : Source} {store store' : Store}
  {world world' : World} {id : HandleId} {contents : Contents} {patches : List Patch}
  {unit : ClassUnit} {bytes : Bytes}

theorem Makes.concat (h : Makes contents path patches unit bytes) (patch : Patch) :
    Makes contents path (patches ++ [patch]) unit bytes := by
  obtain ⟨before, old, hprefix, hold, hremaps⟩ := h
  exact ⟨before, old, hprefix.trans (List.prefix_append ..), hold, hremaps⟩

/-- A class of which a patch was made is one that the archive lists. -/
theorem Makes.contents_ne_none (h : Makes contents path patches unit bytes) :
    contents (normalizeEntry unit.classEntry) ≠ none := by
  obtain ⟨before, old, -, hold, -⟩ := h
  intro hnone
  rw [patchedBy, Contents.overlaid, hnone] at hold
  cases hold

theorem patchWrites_concat (path : String) (patches : List Patch) (unit : ClassUnit)
    (bytes : Bytes) :
    patchWrites path (patches ++ [(unit, bytes)])
      = patchWrites path patches ++ [⟨path, unit.classEntry, bytes⟩] := by
  rw [patchWrites, List.map_append]
  rfl

/-! ## The one cell -/

/-- The store that has a handle of the archive at a place, and nothing else. -/
def serving (location : Location) (id : HandleId) : Store := ⟨[⟨pathOf location, some id⟩]⟩

/-- Whether a store was asked for nothing, or has opened the archive at a place. -/
def Single (location : Location) (store : Store) : Prop :=
  store = .empty ∨ ∃ id, store = serving location id

theorem held?_serving (location : Location) (id : HandleId) :
    (serving location id).held? (pathOf location) = some id :=
  Store.held?_singleton ..

/-- The handle that is given is that of the archive, and stays so. -/
theorem Single.of_handle (h : Single location store)
    (hkey : Store.key world.files path = .ok (pathOf location))
    (hhandle : store.handle world path = (store', world', .ok id)) :
    store' = serving location id ∧ ∀ i, store = serving location i → i = id := by
  have hasks := Store.asks_of_handle hhandle
  cases hasks with
  | held keyed held =>
    cases hkey.symm.trans keyed
    rcases h with rfl | ⟨i, rfl⟩
    · cases held
    · rw [held?_serving] at held
      cases held
      refine ⟨rfl, fun i hi => ?_⟩
      cases hi
      rfl
  | opened keyed vacant opening =>
    cases hkey.symm.trans keyed
    rcases h with rfl | ⟨i, rfl⟩
    · exact ⟨Store.register_empty .., fun i hi => nomatch hi⟩
    · rw [held?_serving] at vacant
      cases vacant

/-! ## Steps -/

/-- Whether the lines of a unit were remapped. -/
def Stage.persists (stage : Stage) : Bool :=
  stage.outcome?.any fun outcome => outcome.lines = .persisted

/-- What is known of the work on a unit at a stage: the handle is that of the archive, and what is
to be written is a patch. -/
def Stage.Holds (location : Location) (contents : Contents) (path : String) (store : Store)
    (patches : List Patch) (unit : ClassUnit) : Stage → Prop
  | waiting | offered _ | done _ | counted _ => True
  | reading _ m id => store = serving location id ∧ ∃ line flat,
    unit.mapping = some (line :: flat) ∧ LineMapping.ofFlat (line :: flat) = .ok m
  | remapped _ bytes _ => Makes contents path patches unit bytes
  | writing _ bytes _ id => store = serving location id ∧ Makes contents path patches unit bytes

variable {σ : Type} [TextSink σ] {own : σ → FileSystem → Prop} {common common' : Common σ}
  {patches' : List Patch} {fs : FileSystem}

section Steps

variable {stage stage' : Stage}

/-- What is known of what the workers share, when some patches have been written to an archive as a
file system had it. -/
structure Holds (path : String) (location : Location) (source : Source) (fs : FileSystem)
    (own : σ → FileSystem → Prop) (common : Common σ) (patches : List Patch) : Prop where
  shows : Shows path location source common.store common.world (patchWrites path patches)
    (patchedBy (source.contents fs) path patches)
  listing : source.listing common.world.files = source.listing fs
  single : Single location common.store
  own : own common.sink common.world.files
  patches : Patches (source.contents fs) path patches

/-- What a step of the work on a unit does: it writes a patch of the unit, or nothing. -/
structure Steps (path : String) (location : Location) (source : Source) (fs : FileSystem)
    (own : σ → FileSystem → Prop) (unit : ClassUnit) (stage : Stage) (common : Common σ)
    (patches : List Patch) (stage' : Stage) (common' : Common σ) (patches' : List Patch) : Prop where
  holds : Holds path location source fs own common' patches'
  fits : stage'.Holds location (source.contents fs) path common'.store patches' unit
  keeps : ∀ i, common.store = serving location i → common'.store = serving location i
  written : patches' = patches ∧ stage'.persists = stage.persists
    ∨ stage.persists = false ∧ stage'.persists = true ∧ ∃ bytes, patches' = patches ++ [(unit, bytes)]

omit [TextSink σ] in
theorem Holds.record (h : Holds path location source fs own common patches)
    (level : Log.Level) (origin : Log.Source) (text : String) :
    Holds path location source fs own
      { common with world := common.world.record level origin text } patches :=
  ⟨h.shows.spared (.record ..), h.listing, h.single, h.own, h.patches⟩

omit [TextSink σ] in
/-- A step that writes nothing. -/
theorem Steps.of_holds (h : Holds path location source fs own common' patches)
    (hfits : stage'.Holds location (source.contents fs) path common'.store patches unit)
    (hkeeps : ∀ i, common.store = serving location i → common'.store = serving location i)
    (hpersists : stage'.persists = stage.persists) :
    Steps path location source fs own unit stage common patches stage' common' patches :=
  ⟨h, hfits, hkeeps, .inl ⟨rfl, hpersists⟩⟩

omit [TextSink σ] in
/-- A step with which the lines of a unit have failed. -/
theorem Steps.of_fail (h : Holds path location source fs own common' patches)
    (hkeeps : ∀ i, common.store = serving location i → common'.store = serving location i)
    (hpersists : stage.persists = false) (textSaved : Bool) (e : Saver.PatchError) :
    Steps path location source fs own unit stage common patches
      (common'.fail path unit textSaved e).2 (common'.fail path unit textSaved e).1 patches :=
  .of_holds (h.record ..) trivial hkeeps hpersists.symm

omit [TextSink σ] in
/-- Asked for the archive, the store gives its handle. -/
theorem Holds.handle (h : Holds path location source fs own common patches) :
    ∃ store world id, common.store.handle common.world path = (store, world, .ok id)
      ∧ Holds path location source fs own { common with store, world } patches
      ∧ store = serving location id
      ∧ ∀ i, common.store = serving location i → store = serving location i := by
  obtain ⟨store, world, id, hhandle, hshows, -, hfiles⟩ := h.shows.handle
  obtain ⟨hstore, hkeeps⟩ := h.single.of_handle h.shows.isolated.key hhandle
  refine ⟨store, world, id, hhandle, ⟨hshows, ?_, .inr ⟨id, hstore⟩, ?_, h.patches⟩, hstore,
    fun i hi => ?_⟩
  · rw [hfiles]
    exact h.listing
  · rw [hfiles]
    exact h.own
  · rw [hkeeps i hi]
    exact hstore

omit [TextSink σ] in
theorem Holds.serves (h : Holds path location source fs own common patches)
    (hstore : common.store = serving location id) :
    Serving location source common.store common.world id (patchWrites path patches) := by
  cases h.shows.working with
  | fresh empty unwritten => cases hstore.symm.trans empty
  | serving i serves =>
    have hfound := serves.found
    rw [hstore] at hfound
    cases (held?_serving location id).symm.trans hfound
    exact serves

theorem Holds.steps_offered (h : Holds path location source fs own common patches)
    (textSaved : Bool) :
    Steps path location source fs own unit (.offered textSaved) common patches
      ((Stage.offered textSaved).next path unit common).2
      ((Stage.offered textSaved).next path unit common).1 patches := by
  rw [Stage.next]
  rcases hmapping : unit.mapping with - | (- | ⟨line, flat⟩)
  · exact .of_holds h trivial (fun _ hi => hi) rfl
  · exact .of_holds h trivial (fun _ hi => hi) rfl
  · dsimp only
    cases hflat : LineMapping.ofFlat (line :: flat) with
    | error e => exact .of_fail h (fun _ hi => hi) rfl textSaved _
    | ok m =>
      obtain ⟨store, world, id, hhandle, hholds, hstore, hkeeps⟩ := h.handle
      dsimp only
      rw [hhandle]
      exact .of_holds hholds ⟨hstore, line, flat, hmapping, hflat⟩ hkeeps rfl

/-- What is read is shown now, so what is made of it is a patch. -/
theorem Holds.steps_reading (h : Holds path location source fs own common patches)
    {textSaved : Bool} {m : LineMapping}
    (hfits : (Stage.reading textSaved m id).Holds location (source.contents fs) path common.store
      patches unit) :
    Steps path location source fs own unit (.reading textSaved m id) common patches
      ((Stage.reading textSaved m id).next path unit common).2
      ((Stage.reading textSaved m id).next path unit common).1 patches := by
  obtain ⟨hstore, line, flat, hmapping, hflat⟩ := hfits
  have hread := h.shows.readEntry (h.serves hstore) unit.classEntry
  rw [Stage.next, hread]
  cases hanswer : Handle.answer (pathOf location) unit.classEntry
      (patchedBy (source.contents fs) path patches (normalizeEntry unit.classEntry)) with
  | error e => exact .of_fail h (fun _ hi => hi) rfl textSaved _
  | ok old =>
    rw [Common.ofRead]
    cases hremap : remapClass m old with
    | error e => exact .of_fail h (fun _ hi => hi) rfl textSaved _
    | ok pair =>
      have hmakes : Makes (source.contents fs) path patches unit pair.1 :=
        ⟨patches, old, List.prefix_rfl, Handle.answer_eq_ok_iff.1 hanswer, line, flat, m, pair.2,
          hmapping, hflat, hremap⟩
      exact .of_holds h hmakes (fun _ hi => hi) rfl

/-- The write of a patch succeeds. -/
theorem Holds.steps_writing (h : Holds path location source fs own common patches)
    {textSaved : Bool} {report : RemapReport}
    (hfits : (Stage.writing textSaved bytes report id).Holds location (source.contents fs) path
      common.store patches unit) :
    Steps path location source fs own unit (.writing textSaved bytes report id) common patches
      ((Stage.writing textSaved bytes report id).next path unit common).2
      ((Stage.writing textSaved bytes report id).next path unit common).1
      (patches ++ [(unit, bytes)]) := by
  obtain ⟨hstore, hmakes⟩ := hfits
  have hlisted := hmakes.contents_ne_none
  have hshown :
      patchedBy (source.contents fs) path patches (normalizeEntry unit.classEntry) ≠ none := by
    intro hnone
    rw [patchedBy, Contents.overlaid, Option.map_eq_none_iff] at hnone
    exact hlisted hnone
  obtain ⟨world, hwrite, hshows, hfiles⟩ := h.shows.writeEntry (h.serves hstore) hshown bytes
  -- the patch is what the archive shows for the class from now on
  have hpatched : patchedBy (source.contents fs) path (patches ++ [(unit, bytes)])
      = Function.update (patchedBy (source.contents fs) path patches)
        (normalizeEntry unit.classEntry) (some (.ok bytes)) := by
    rw [patchedBy, patchWrites_concat, stage_concat, Contents.overlaid_insert hlisted]
    rfl
  have hholds : Holds path location source fs own { common with world }
      (patches ++ [(unit, bytes)]) := by
    refine ⟨?_, ?_, h.single, ?_, h.patches.concat hmakes⟩
    · rw [patchWrites_concat, hpatched]
      exact hshows
    · rw [hfiles]
      exact h.listing
    · rw [hfiles]
      exact h.own
  rw [Stage.next, hwrite]
  exact ⟨hholds.record .., trivial, fun _ hi => hi, .inr ⟨rfl, rfl, bytes, rfl⟩⟩

/-- A step of the work on a unit writes at most a patch of the unit. -/
theorem Holds.steps (hsparing : Sparing path location own)
    (h : Holds path location source fs own common patches)
    (hfits : stage.Holds location (source.contents fs) path common.store patches unit) :
    ∃ patches', Steps path location source fs own unit stage common patches
      (stage.next path unit common).2 (stage.next path unit common).1 patches' := by
  cases stage with
  | waiting =>
    obtain ⟨sink, world, htext, hown, hspares⟩ := hsparing.saveText h.own unit
    have hlisting := (hspares.listing_eq h.shows.isolated.archived).trans h.listing
    rw [Stage.next, htext]
    exact ⟨patches, .of_holds ⟨h.shows.spared hspares, hlisting, h.single, hown, h.patches⟩ trivial
      (fun _ hi => hi) rfl⟩
  | offered textSaved => exact ⟨patches, h.steps_offered textSaved⟩
  | reading textSaved m id => exact ⟨patches, h.steps_reading hfits⟩
  | remapped textSaved bytes report =>
    obtain ⟨store, world, id, hhandle, hholds, hstore, hkeeps⟩ := h.handle
    rw [Stage.next, hhandle]
    exact ⟨patches, .of_holds hholds ⟨hstore, hfits⟩ hkeeps rfl⟩
  | writing textSaved bytes report id => exact ⟨_, h.steps_writing hfits⟩
  | done outcome =>
    exact ⟨patches, .of_holds ⟨h.shows, h.listing, h.single, h.own, h.patches⟩ trivial
      (fun _ hi => hi) rfl⟩
  | counted outcome => exact ⟨patches, .of_holds h trivial (fun _ hi => hi) rfl⟩

/-! ## Any order -/

/-- What is known of a batch at a moment, when some patches have been written. -/
structure Patched (path : String) (location : Location) (source : Source) (fs : FileSystem)
    (own : σ → FileSystem → Prop) (progress : Progress σ) (patches : List Patch) : Prop where
  holds : Holds path location source fs own progress.common patches
  fits : ∀ task ∈ progress.tasks,
    task.stage.Holds location (source.contents fs) path progress.common.store patches task.unit
  written : (patches.map Prod.fst).Perm
    ((progress.tasks.filter fun task => task.stage.persists).map Task.unit)

omit [TextSink σ] in
theorem patched_start {sink : σ} (hisolated : Isolated path location source world.files)
    (hown : own sink world.files) (units : List ClassUnit) :
    Patched path location source world.files own (.start path sink world units)
      [] where
  holds := by
    have hshows := shows_empty hisolated
    have hcontents : patchedBy (source.contents world.files) path []
        = source.contents world.files := hshows.shown.symm
    refine ⟨?_, rfl, .inl rfl, hown, .nil⟩
    rw [hcontents]
    exact hshows
  fits := by
    intro task htask
    obtain ⟨unit, -, rfl⟩ := List.mem_map.1 htask
    trivial
  written := by
    have hnone : (Progress.start path sink world units).tasks.filter
        (fun task => task.stage.persists) = [] := by
      refine List.filter_eq_nil_iff.2 fun task htask => ?_
      obtain ⟨unit, -, rfl⟩ := List.mem_map.1 htask
      exact Bool.false_ne_true
    rw [hnone]
    exact .nil

/-- What is known of the work on a unit stays known when others have gone on. -/
theorem Stage.Holds.mono (h : stage.Holds location contents path store patches unit)
    (hkeeps : ∀ i, store = serving location i → store' = serving location i)
    (hpatches : patches' = patches ∨ ∃ patch, patches' = patches ++ [patch]) :
    stage.Holds location contents path store' patches' unit := by
  have hmakes {bytes : Bytes} (h : Makes contents path patches unit bytes) :
      Makes contents path patches' unit bytes := by
    rcases hpatches with rfl | ⟨patch, rfl⟩
    · exact h
    · exact h.concat patch
  cases stage with
  | waiting => trivial
  | offered textSaved => trivial
  | reading textSaved m id => exact ⟨hkeeps id h.1, h.2⟩
  | remapped textSaved bytes report => exact hmakes h
  | writing textSaved bytes report id => exact ⟨hkeeps id h.1, hmakes h.2⟩
  | done outcome => trivial
  | counted outcome => trivial

end Steps

theorem Patched.next (hsparing : Sparing path location own) {front back : List Task}
    {stage : Stage}
    (h : Patched path location source fs own ⟨common, front ++ ⟨unit, stage⟩ :: back⟩ patches) :
    ∃ patches', Patched path location source fs own ⟨(stage.next path unit common).1,
      front ++ ⟨unit, (stage.next path unit common).2⟩ :: back⟩ patches' := by
  obtain ⟨patches', hsteps⟩ := h.holds.steps hsparing
    (h.fits ⟨unit, stage⟩ (List.mem_append_right _ (List.mem_cons_self ..)))
  refine ⟨patches', hsteps.holds, fun other hother => ?_, ?_⟩
  · rcases List.mem_cons.1 (List.perm_middle.mem_iff.1 hother) with rfl | hother
    · exact hsteps.fits
    · have hbefore := h.fits other (List.perm_middle.mem_iff.2 (List.mem_cons_of_mem _ hother))
      refine hbefore.mono hsteps.keeps ?_
      rcases hsteps.written with ⟨hsame, -⟩ | ⟨-, -, bytes, hnew⟩
      · exact .inl hsame
      · exact .inr ⟨_, hnew⟩
  · have hwritten := h.written
    rw [List.filter_append, List.filter_cons] at hwritten ⊢
    rcases hsteps.written with ⟨rfl, hsame⟩ | ⟨hbefore, hafter, bytes, rfl⟩
    · dsimp only at hwritten ⊢
      rw [← hsame] at hwritten
      rw [List.map_append] at hwritten ⊢
      split at hwritten
      case isTrue hpersists =>
        rw [if_pos hpersists]
        exact hwritten
      case isFalse hpersists =>
        rw [if_neg hpersists]
        exact hwritten
    · -- the unit that has written now had not before
      rw [hbefore, if_neg Bool.false_ne_true] at hwritten
      rw [hafter, if_pos rfl, List.map_append, List.map_append]
      have hnow := (List.perm_append_singleton unit (patches.map Prod.fst)).trans
        (hwritten.cons unit)
      rw [List.map_append] at hnow
      exact hnow.trans List.perm_middle.symm

/-- Whatever the order, each unit whose lines were remapped has written a patch. -/
theorem exists_patched_worked {units : List ClassUnit} {sink : σ}
    (hisolated : Isolated path location source world.files) (hsparing : Sparing path location own)
    (hown : own sink world.files) (order : List Nat) :
    ∃ patches, Patched path location source world.files own
      (worked path units sink world order) patches := by
  refine worked_invariant
    (P := fun progress => ∃ patches, Patched path location source world.files own progress patches)
    (fun common front unit stage back _ h => ?_) ⟨[], patched_start hisolated hown units⟩ order
  obtain ⟨patches, h⟩ := h
  exact h.next hsparing

/-! ## One unit after the other -/

/-- What a store shows that works on an archive is settled by the store and the world. -/
theorem Shows.contents_eq {writes writes' : List Write} {contents' : Contents}
    (h : Shows path location source store world writes contents)
    (h' : Shows path location source store world writes' contents') : contents' = contents := by
  have hstaged : stage ∅ writes' = stage ∅ writes := by
    cases h.working with
    | fresh empty unwritten =>
      subst empty unwritten
      cases h'.working with
      | fresh empty' unwritten' => rw [unwritten']
      | serving id' serves' => cases serves'.found
    | serving id serves =>
      cases h'.working with
      | fresh empty' unwritten' =>
        subst empty'
        cases serves.found
      | serving id' serves' =>
        cases serves.found.symm.trans serves'.found
        have hopened := serves.opened.symm.trans serves'.opened
        exact (congrArg Handle.staged (Option.some.inj hopened)).symm
  rw [h.shown, h'.shown, hstaged]

/-- When units were saved one after the other, the archive shows what they come to in turn. -/
theorem Shows.eq_settleAll {units : List ClassUnit} {sink : σ} {writes : List Write}
    (hisolated : Isolated path location source world.files) (hsparing : Sparing path location own)
    (hown : own sink world.files)
    (h : Shows path location source (savedInTurn path units sink world).store
      (savedInTurn path units sink world).world writes contents) :
    contents = (settleAll (source.contents world.files) units).2 := by
  obtain ⟨sink', store', world', writes', hunits, hshows, -⟩ :=
    (shows_empty hisolated).saveUnits hsparing hown (start path) units
  rw [savedInTurn, hunits] at h
  exact hshows.contents_eq h

/-! ## Closing the store -/

/-- What closing the archive at a place on its own comes to, if a store has opened it. -/
def closes (location : Location) (store : Store) (world : World) :
    World × Except Archive.Error Unit :=
  match store.held? (pathOf location) with
  | none => (world, .ok ())
  | some id => world.closeHandle id

/-- Closing the store is closing this archive. -/
theorem Single.closeAll (h : Single location store) (world : World) :
    (store.closeAll world).2.1.files = (closes location store world).1.files
      ∧ ((closes location store world).2 = .ok () → (store.closeAll world).2.2 = [])
      ∧ ∀ e, (closes location store world).2 = .error e →
        (store.closeAll world).2.2 = [⟨pathOf location, e⟩] := by
  rcases h with rfl | ⟨id, rfl⟩
  · rw [Store.closeAll_empty]
    refine ⟨rfl, fun _ => rfl, fun e he => ?_⟩
    cases he
  · rw [closes, held?_serving, serving, Store.closeAll, Store.ordered, List.mergeSort_singleton,
      Store.closeCells]
    dsimp only
    rcases world.closeHandle id with ⟨world', e | done⟩
    · refine ⟨rfl, fun hdone => ?_, fun e' he => ?_⟩
      · cases hdone
      · cases he
        rfl
    · refine ⟨rfl, fun _ => rfl, fun e he => ?_⟩
      cases he

/-- What closing a sink may do: handles stay as they are and nothing is found beside the archive.
The archive itself may be removed or replaced, and so may the directories above it. -/
structure Yields (location : Location) (world world' : World) : Prop where
  outside : Outside world.files world'.files
  handles : ∀ (id : HandleId) (handle : Handle), world.handles[id]? = some handle →
    world'.handles[id]? = some handle
  free : Vacant world'.files (Handle.temporaryPath (pathOf location))

omit [TextSink σ] in
/-- With no patches nothing is staged, and closing the archive does nothing. -/
theorem Holds.closes_nil (h : Holds path location source fs own common []) {closed : World}
    (hyields : Yields location common.world closed) :
    (closes location common.store closed).1.files = closed.files
      ∧ (closes location common.store closed).2 = .ok () := by
  rcases h.single with hempty | ⟨id, hstore⟩
  · rw [closes, hempty]
    exact ⟨rfl, rfl⟩
  · have hopened := hyields.handles _ _ (h.serves hstore).opened
    rw [closes, hstore, held?_serving]
    dsimp only
    rw [World.closeHandle, Store.handle_of_getElem? hopened]
    exact ⟨rfl, rfl⟩

omit [TextSink σ] in
/-- With patches, the archive is open. -/
theorem Holds.exists_serving (h : Holds path location source fs own common patches)
    (hne : patches ≠ []) :
    (stage ∅ (patchWrites path patches)).isEmpty = false
      ∧ ∃ id, common.store = serving location id
        ∧ Serving location source common.store common.world id (patchWrites path patches) := by
  have hwrites : patchWrites path patches ≠ [] := fun hnil => hne (List.map_eq_nil_iff.1 hnil)
  refine ⟨isEmpty_stage hwrites ∅, ?_⟩
  rcases h.single with hempty | ⟨id, hstore⟩
  · cases h.shows.working with
    | fresh empty unwritten => exact absurd unwritten hwrites
    | serving id serves =>
      have hfound := serves.found
      rw [hempty] at hfound
      cases hfound
  · exact ⟨id, hstore, h.serves hstore⟩

omit [TextSink σ] in
/-- Closing the archive puts them into its place. -/
theorem Holds.closes_of_ne_nil (h : Holds path location source fs own common patches)
    (hne : patches ≠ []) {closed : World} (hyields : Yields location common.world closed) :
    (closes location common.store closed).1.files
        = (Handle.flush closed.files source (stage ∅ (patchWrites path patches))
          (pathOf location)).1
      ∧ (closes location common.store closed).2
        = (Handle.flush closed.files source (stage ∅ (patchWrites path patches))
          (pathOf location)).2 := by
  obtain ⟨hstaged, id, hstore, hserves⟩ := h.exists_serving hne
  have hopened := hyields.handles _ _ hserves.opened
  rw [closes, hstore, held?_serving]
  dsimp only
  rw [World.closeHandle, Store.handle_of_getElem? hopened, Handle.close_eq rfl hstaged]
  exact ⟨rfl, rfl⟩

omit [TextSink σ] in
/-- An archive that cannot be closed leaves everything as it was. -/
theorem Holds.restored_closes (h : Holds path location source fs own common patches)
    {closed : World} (hyields : Yields location common.world closed) {e : Archive.Error}
    (hclose : (closes location common.store closed).2 = .error e) :
    Restored closed.files (closes location common.store closed).1.files := by
  by_cases hne : patches = []
  · subst hne
    cases (h.closes_nil hyields).2.symm.trans hclose
  · obtain ⟨hfiles, hresult⟩ := h.closes_of_ne_nil hne hyields
    rw [hfiles]
    exact restored_of_flush (isAbsolute_pathOf location) hyields.free (hresult.symm.trans hclose)

omit [TextSink σ] in
/-- If the sink has not written to the archive's file, the patches are in the archive when it could
be closed. -/
theorem Holds.renewed_closes (h : Holds path location source fs own common patches)
    (hne : patches ≠ []) {closed : World} (hyields : Yields location common.world closed)
    (hdata : closed.files.data source.file = common.world.files.data source.file)
    (hnodup : (source.directory.entries.map Zip.Entry.name).Nodup)
    (hclose : (closes location common.store closed).2 = .ok ()) :
    Renewed closed.files (closes location common.store closed).1.files (pathOf location)
      source.directory.comment
      ((source.listing fs).map (overlay (stage ∅ (patchWrites path patches)))) := by
  obtain ⟨hfiles, hresult⟩ := h.closes_of_ne_nil hne hyields
  have harchived := h.shows.isolated.archived
  have hlisting : source.listing closed.files = source.listing fs := by
    rw [← h.listing, Source.listing, Source.listing, hdata]
  have hfile : source.file < closed.files.files.size := by
    obtain ⟨-, hnode⟩ := node?_of_inspect (isAbsolute_pathOf location) harchived.place
    exact Nat.lt_of_lt_of_le (harchived.wellFormed.data _ _ hnode) hyields.outside.size
  have hlength : source.length = (closed.files.data source.file).bytes.size := by
    rw [hdata]
    exact harchived.length_eq
  rw [hfiles, ← hlisting]
  refine renewed_of_flush hyields.outside.wellFormed (isAbsolute_pathOf location) hyields.free hfile
    hlength hnodup (fun n bytes hget => ?_) (hresult.symm.trans hclose)
  exact Source.contents_ne_none.1 (h.shows.listed n bytes hget)

/-! ## The end -/

/-- A sink whose files are its own spares the archive of a path as long as it is not closed. -/
def SparingSaves {σ : Type} [TextSink σ] (path : String) (location : Location)
    (own : σ → FileSystem → Prop) : Prop :=
  ∀ sink world qualifiedName entryName content, own sink world.files →
    own (TextSink.save sink world qualifiedName entryName content).1
        (TextSink.save sink world qualifiedName entryName content).2.1.files
      ∧ Spares path location world (TextSink.save sink world qualifiedName entryName content).2.1

/-- A sink that is never closed. -/
structure Unclosed (σ : Type) where
  sink : σ

instance : TextSink (Unclosed σ) where
  save unclosed world qualifiedName entryName content :=
    let (sink, world, answer) := TextSink.save unclosed.sink world qualifiedName entryName content
    (⟨sink⟩, world, answer)
  close unclosed world := (unclosed, world, .ok ())

theorem savesAs_unclosed : SavesAs (Unclosed.sink : Unclosed σ → σ) := fun _ _ _ _ _ => rfl

theorem SparingSaves.unclosed (h : SparingSaves path location own) :
    Sparing path location fun (unclosed : Unclosed σ) files => own unclosed.sink files where
  save unclosed world qualifiedName entryName content hown :=
    h unclosed.sink world qualifiedName entryName content hown
  close _ _ _ := .refl ..

/-- The failure to close the archive is reported first, then that to close the sink. -/
theorem conclude_cases (hsingle : Single location common.store) {sink' sink'' : σ}
    {closed after : World} {answer : Except Failure Unit}
    {result : Except Batch.Error BatchSummary}
    (hclosing : TextSink.close common.sink common.world = (sink', closed, answer))
    (hconclude : common.conclude path = (sink'', after, result)) :
    after.files = (closes location common.store closed).1.files
      ∧ (∀ e, (closes location common.store closed).2 = .error e →
        result = .error (.persist path [⟨pathOf location, e⟩]))
      ∧ ((closes location common.store closed).2 = .ok () →
        (∀ e, answer = .error e → result = .error (.sink e))
          ∧ (answer = .ok () → result = .ok common.summary)) := by
  obtain ⟨hfiles, hok, herror⟩ := hsingle.closeAll closed
  rw [Common.conclude, hclosing] at hconclude
  dsimp only at hconclude
  rw [← hfiles]
  -- closing the one archive gives the failures of the store
  generalize common.store.closeAll closed = ended at hconclude hok herror ⊢
  obtain ⟨store, world, failures⟩ := ended
  dsimp only at hconclude hok herror ⊢
  cases hclose : (closes location common.store closed).2 with
  | error e =>
    rw [herror e hclose] at hconclude
    cases hconclude
    refine ⟨rfl, fun e' he => ?_, fun hdone => ?_⟩
    · cases he
      rfl
    · cases hdone
  | ok done =>
    rw [hok hclose] at hconclude
    refine ⟨?_, fun e he => ?_, fun _ => ⟨fun e he => ?_, fun hdone => ?_⟩⟩
    · cases answer <;> cases hconclude <;> rfl
    · cases he
    · subst he
      cases hconclude
      rfl
    · subst hdone
      cases hconclude
      rfl

/-- What is known of a batch, in whatever order its units were worked on, and of one whose units
were saved in turn. -/
theorem SparingSaves.exists_patches {sink : σ} (hsparing : SparingSaves path location own)
    (hisolated : Isolated path location source world.files) (hown : own sink world.files)
    (units : List ClassUnit) (order : List Nat) :
    ∃ patches, Holds path location source world.files own
        (worked path units sink world order).common patches
      ∧ (patches.map Prod.fst).Perm (((worked path units sink world order).tasks.filter
        fun task => task.stage.persists).map Task.unit)
      ∧ ((worked path units sink world order).common = savedInTurn path units sink world →
        patchedBy (source.contents world.files) path patches
          = (settleAll (source.contents world.files) units).2) := by
  -- over a sink that is never closed, all goes the same way
  have hunclosed := hsparing.unclosed
  have hown' : (fun (unclosed : Unclosed σ) files => own unclosed.sink files) ⟨sink⟩ world.files :=
    hown
  have hworked := savesAs_unclosed.worked path units (⟨sink⟩ : Unclosed σ) world order
  have hsaved : savedInTurn path units sink world
      = (savedInTurn path units (⟨sink⟩ : Unclosed σ) world).map Unclosed.sink := by
    rw [savedInTurn, savesAs_unclosed.saveUnits path units (⟨sink⟩ : Unclosed σ)]
    rfl
  obtain ⟨patches, hpatched⟩ : ∃ patches, Patched path location source world.files _
      (worked path units (⟨sink⟩ : Unclosed σ) world order) patches :=
    exists_patched_worked hisolated hunclosed hown' order
  rw [hworked]
  obtain ⟨hshows, hlisting, hsingle, hfiles, hpatches⟩ := hpatched.holds
  refine ⟨patches, ⟨hshows, hlisting, hsingle, hfiles, hpatches⟩, hpatched.written, fun hturn => ?_⟩
  rw [hsaved] at hturn
  have hstore := congrArg Common.store hturn
  have hworld := congrArg Common.world hturn
  dsimp only [Progress.map, Common.map] at hstore hworld
  rw [hstore, hworld] at hshows
  exact hshows.eq_settleAll hisolated hunclosed hown'

variable {units : List ClassUnit} {sink sink' sink'' : σ} {order : List Nat}
  {closed after : World} {answer : Except Failure Unit} {result : Except Batch.Error BatchSummary}

/-- Whatever became of its units, a batch closes its sink once, after all texts were given to it,
and then its store. The result is the failure to close the archive if there is one, and then
everything is as the sink has left it; else it is the failure of the sink, or the summary, and each
unit whose lines were remapped has its patch in the archive. The store that is given up afterwards
has nothing left to close. -/
theorem conclude_worked (hisolated : Isolated path location source world.files)
    (hnodup : (source.directory.entries.map Zip.Entry.name).Nodup)
    (hsparing : SparingSaves path location own) (hown : own sink world.files)
    (hover : (worked path units sink world order).IsOver)
    (hcommon : (worked path units sink world order).common = common)
    (hclosing : TextSink.close common.sink common.world = (sink', closed, answer))
    (hyields : Yields location common.world closed)
    (hconclude : common.conclude path = (sink'', after, result)) :
    ∃ patches,
      (patches.map Prod.fst).Perm (((worked path units sink world order).tasks.filter
          fun task => task.stage.persists).map Task.unit)
        ∧ Patches (source.contents world.files) path patches
        ∧ (common = savedInTurn path units sink world →
          patchedBy (source.contents world.files) path patches
            = (settleAll (source.contents world.files) units).2)
        ∧ (∃ saves, saves.Perm (units.map saving)
          ∧ (worked path units (⟨sink, []⟩ : Traced σ) world order).common.conclude path
            = (⟨sink'', saves ++ [.close]⟩, after, result))
        ∧ after.files = (closes location common.store closed).1.files
        ∧ (∀ e, (closes location common.store closed).2 = .error e →
          result = .error (.persist path [⟨pathOf location, e⟩]) ∧ Restored closed.files after.files)
        ∧ ((closes location common.store closed).2 = .ok () →
          (∀ e, answer = .error e → result = .error (.sink e))
            ∧ (answer = .ok () → result = .ok common.summary)
            ∧ (patches = [] → after.files = closed.files)
            ∧ (patches ≠ [] →
              closed.files.data source.file = common.world.files.data source.file →
                Renewed closed.files after.files (pathOf location) source.directory.comment
                  ((source.listing world.files).map
                    (overlay (stage ∅ (patchWrites path patches))))))
        ∧ (common.store.closeAll closed).1 = .empty
        ∧ ∀ later, (common.store.closeAll closed).1.drop later = later := by
  obtain ⟨patches, hholds, hwritten, hturn⟩ :=
    hsparing.exists_patches hisolated hown units order
  -- the calls are those that the same batch makes of a sink that notes them
  obtain ⟨saves, hsaves, htraced⟩ := exists_conclude_traced hover
  rw [hcommon] at hholds hturn htraced
  rw [hconclude] at htraced
  obtain ⟨hfiles, herror, hok⟩ := conclude_cases hholds.single hclosing hconclude
  refine ⟨patches, hwritten, hholds.patches, hturn, ⟨saves, hsaves, htraced⟩, hfiles,
    fun e he => ?_,
    fun hclose => ⟨(hok hclose).1, (hok hclose).2, ?_, fun hne hdata => ?_⟩, rfl,
    Store.drop_empty⟩
  · rw [hfiles]
    exact ⟨herror e he, hholds.restored_closes hyields he⟩
  · rintro rfl
    rw [hfiles]
    exact (hholds.closes_nil hyields).1
  · rw [hfiles]
    exact hholds.renewed_closes hne hyields hdata hnodup hclose

/-! ## A sink that cannot be closed -/

/-- A sink that takes all texts and cannot be closed, and may remove the archive when it is tried.
-/
structure Faulty where
  removes : Bool

/-- The world as the sink leaves it when it is closed. -/
def Faulty.leave (sink : Faulty) (world : World) : World :=
  if sink.removes then world.withFiles (world.files.dropNode ["lib.jar"]) else world

instance : TextSink Faulty where
  save sink world _ _ _ := (sink, world, .ok ())
  close sink world := (sink, sink.leave world, .error (.ofText "no space"))

/-- Texts change neither the sink nor a file. -/
theorem sparingSaves_faulty (path : String) (location : Location) (faulty : Faulty)
    (fs : FileSystem) :
    SparingSaves path location fun (sink : Faulty) files => sink = faulty ∧ files = fs :=
  fun _ _ _ _ _ hown => ⟨hown, .refl ..⟩

theorem vacant_faulty : Vacant classWorld.files "/lib.jar.tmp"
    ∧ Vacant (classWorld.files.dropNode ["lib.jar"]) "/lib.jar.tmp" := by
  have hbeside : classWorld.files.resolve .entry "/lib.jar.tmp"
        = .ok (.vacant ["lib.jar.tmp"] false)
      ∧ (classWorld.files.dropNode ["lib.jar"]).resolve .entry "/lib.jar.tmp"
        = .ok (.vacant ["lib.jar.tmp"] false) := by
    decide +kernel
  exact ⟨fun l node slash hfound => (by cases hbeside.1.symm.trans hfound),
    fun l node slash hfound => (by cases hbeside.2.symm.trans hfound)⟩

theorem yields_leave {world : World} (hfiles : world.files = classWorld.files) (sink : Faulty) :
    Yields ["lib.jar"] world (sink.leave world) := by
  have hwellFormed := isolated_classWorld.archived.wellFormed
  have hbeside : Handle.temporaryPath (pathOf ["lib.jar"]) = "/lib.jar.tmp" := by decide +kernel
  obtain ⟨hvacant, hvacant'⟩ := vacant_faulty
  rw [← hfiles] at hwellFormed hvacant hvacant'
  rcases sink with ⟨_ | _⟩
  · exact ⟨⟨hwellFormed, Nat.le_refl _⟩, fun _ _ hid => hid, hbeside ▸ hvacant⟩
  · exact ⟨⟨wellFormed_dropNode hwellFormed _, Nat.le_refl _⟩, fun _ _ hid => hid,
      hbeside ▸ hvacant'⟩

/-- A batch over the archive of one class with such a sink, worked on by turns. -/
def faultyBatch (sink : Faulty) : Common Faulty :=
  (worked "lib.jar" outUnits sink classWorld byTurns).common

theorem faultyBatch_stays (sink : Faulty) : (faultyBatch sink).sink = sink
    ∧ (faultyBatch sink).world.files = classWorld.files := by
  obtain ⟨common, hcommon⟩ : ∃ common, faultyBatch sink = common := ⟨_, rfl⟩
  obtain ⟨patches, hholds, -⟩ :=
    (sparingSaves_faulty "lib.jar" ["lib.jar"] sink classWorld.files).exists_patches
      isolated_classWorld ⟨rfl, rfl⟩ outUnits byTurns
  rw [← faultyBatch, hcommon] at hholds
  rw [hcommon]
  exact hholds.own

set_option maxRecDepth 2000 in
theorem faultyBatch_closes :
    (closes ["lib.jar"] (faultyBatch ⟨false⟩).store (faultyBatch ⟨false⟩).world).2 = .ok ()
      ∧ (closes ["lib.jar"] (faultyBatch ⟨true⟩).store
          (Faulty.leave ⟨true⟩ (faultyBatch ⟨true⟩).world)).2 = .error (.io "/lib.jar" (.os .notFound))
      ∧ (worked "lib.jar" outUnits (⟨false⟩ : Faulty) classWorld byTurns).IsOver
      ∧ (worked "lib.jar" outUnits (⟨true⟩ : Faulty) classWorld byTurns).IsOver
      ∧ ((worked "lib.jar" outUnits (⟨false⟩ : Faulty) classWorld byTurns).tasks.filter
        fun task => task.stage.persists).map Task.unit = outUnits.take 1 := by
  decide +kernel

/-- A sink that has only failed itself leaves the patched archive, and its failure is reported. If
it has removed the archive as well, that is reported. -/
theorem conclude_worked_faultyBatch :
    (∃ patches, (patches.map Prod.fst).Perm (outUnits.take 1)
        ∧ Renewed (faultyBatch ⟨false⟩).world.files
          ((faultyBatch ⟨false⟩).conclude "lib.jar").2.1.files
          "/lib.jar" [] ((classSource.listing classWorld.files).map
            (overlay (stage ∅ (patchWrites "lib.jar" patches)))))
      ∧ ((faultyBatch ⟨false⟩).conclude "lib.jar").2.2 = .error (.sink (.ofText "no space"))
      ∧ ((faultyBatch ⟨true⟩).conclude "lib.jar").2.2
        = .error (.persist "lib.jar" [⟨"/lib.jar", .io "/lib.jar" (.os .notFound)⟩]) := by
  obtain ⟨hcloses, hfails, hover, hover', hpersisted⟩ := faultyBatch_closes
  have hnodup : (classSource.directory.entries.map Zip.Entry.name).Nodup := by decide +kernel
  have hpath : pathOf ["lib.jar"] = "/lib.jar" := by decide +kernel
  obtain ⟨common, hcommon⟩ : ∃ common, faultyBatch ⟨false⟩ = common := ⟨_, rfl⟩
  obtain ⟨common', hcommon'⟩ : ∃ common, faultyBatch ⟨true⟩ = common := ⟨_, rfl⟩
  obtain ⟨hsink, hfiles⟩ := hcommon ▸ faultyBatch_stays ⟨false⟩
  obtain ⟨hsink', hfiles'⟩ := hcommon' ▸ faultyBatch_stays ⟨true⟩
  rw [hcommon] at hcloses ⊢
  rw [hcommon'] at hfails ⊢
  rw [faultyBatch] at hcommon hcommon'
  have hclosing : TextSink.close common.sink common.world
      = (⟨false⟩, common.world, .error (.ofText "no space")) := by
    rw [hsink]
    rfl
  have hclosing' : TextSink.close common'.sink common'.world
      = (⟨true⟩, Faulty.leave ⟨true⟩ common'.world, .error (.ofText "no space")) := by
    rw [hsink']
    rfl
  rcases hconclude : common.conclude "lib.jar" with ⟨sink, after, result⟩
  rcases hconclude' : common'.conclude "lib.jar" with ⟨sink', after', result'⟩
  obtain ⟨patches, hwritten, -, -, -, -, -, hok, -, -⟩ :=
    conclude_worked isolated_classWorld hnodup
      (sparingSaves_faulty "lib.jar" ["lib.jar"] ⟨false⟩ classWorld.files) ⟨rfl, rfl⟩ hover hcommon
      hclosing (yields_leave hfiles ⟨false⟩) hconclude
  obtain ⟨-, -, -, -, -, -, herror, -, -, -⟩ :=
    conclude_worked isolated_classWorld hnodup
      (sparingSaves_faulty "lib.jar" ["lib.jar"] ⟨true⟩ classWorld.files) ⟨rfl, rfl⟩ hover' hcommon'
      hclosing' (yields_leave hfiles' ⟨true⟩) hconclude'
  rw [hpersisted] at hwritten
  have hne : patches ≠ [] := by
    rintro rfl
    cases hwritten.symm.eq_nil
  obtain ⟨hsinkError, -, -, hrenewed⟩ := hok hcloses
  exact ⟨⟨patches, hwritten, hpath ▸ hrenewed hne rfl⟩, hsinkError _ rfl,
    hpath ▸ (herror _ hfails).1⟩

end Reline.Batch
