/-
  Reline.Proofs.Batch.Interleaving

  Batches whose units are worked on side by side.

  The work on a unit has four steps that act on the store: asking for the handle
  of the archive, reading the class through it, asking for the handle again, and
  writing the class. Between any two of them units make steps of theirs, and the
  sink changes what it likes as long as it spares the archive. Whatever the order,
  all that is staged at any moment are line edits of entries that the archive
  lists, so when the batch has ended well the archive lists the same names, and
  under each the same bytes but for the lines of class files. Working on one unit
  after the other is one such order.

  Main statement: `edits_throughout`.
-/

import Reline.Proofs.Batch.Fold
import Reline.Proofs.LineEdit

namespace Reline.Batch

open Archive FileSystem

/-! ## Jobs -/

/-- How far the work on a unit has got. -/
inductive Job where
  /-- It was not begun. -/
  | waiting (unit : ClassUnit)
  /-- The class is to be read through a handle, and its lines to be remapped. -/
  | reading (entry : String) (mapping : LineMapping) (id : HandleId)
  /-- A handle is needed to write the remapped class. -/
  | remapped (entry : String) (bytes : Bytes)
  /-- The remapped class is to be written through a handle. -/
  | writing (entry : String) (bytes : Bytes) (id : HandleId)
  /-- It is over, for better or worse. -/
  | done

/-- What is left to do when a class was read, or could not be. -/
def Job.ofRead (entry : String) (m : LineMapping) : Except Archive.Error Bytes → Job
  | .error _ => done
  | .ok bytes =>
    match remapClass m bytes with
    | .error _ => done
    | .ok (patched, _) => remapped entry patched

/-- The next step of the work on a unit. Each step locks what it acts on, so nothing comes between;
what is logged is left to the changes of the world that others make. -/
def Job.step (path : String) (store : Store) (world : World) : Job → Store × World × Job
  | waiting unit =>
    match unit.mapping with
    | none | some [] => (store, world, done)
    | some flat =>
      match LineMapping.ofFlat flat with
      | .error _ => (store, world, done)
      | .ok m =>
        match store.handle world path with
        | (store, world, .error _) => (store, world, done)
        | (store, world, .ok id) => (store, world, reading unit.classEntry m id)
  | reading entry m id => (store, world, ofRead entry m (world.readEntry id entry))
  | remapped entry bytes =>
    match store.handle world path with
    | (store, world, .error _) => (store, world, done)
    | (store, world, .ok id) => (store, world, writing entry bytes id)
  | writing entry bytes id => (store, (world.writeEntry id entry bytes).1, done)
  | done => (store, world, done)

/-- The state of a batch at a moment. -/
structure Moment where
  store : Store
  world : World
  jobs : List Job

/-- What can happen next: the work on one of the units goes on, or the world changes in a way that
spares the archive. -/
inductive Moves (path : String) (location : Location) : Moment → Moment → Prop where
  | work {store store' : Store} {world world' : World} {job job' : Job} (front back : List Job)
    (step : job.step path store world = (store', world', job')) :
    Moves path location ⟨store, world, front ++ job :: back⟩ ⟨store', world', front ++ job' :: back⟩
  | other {store : Store} {world world' : World} {jobs : List Job}
    (spares : Spares path location world world') :
    Moves path location ⟨store, world, jobs⟩ ⟨store, world', jobs⟩

/-- Whether one moment can follow another, sooner or later. -/
abbrev Becomes (path : String) (location : Location) : Moment → Moment → Prop :=
  Relation.ReflTransGen (Moves path location)

/-- The moment at which a batch begins. -/
def beginning (world : World) (units : List ClassUnit) : Moment :=
  ⟨.empty, world, units.map .waiting⟩

/-- Whether a batch can end well: the work on all units is over, the sink has been closed, and the
store is closed without a failure. -/
def Ends (path : String) (location : Location) (units : List ClassUnit) (world after : World) :
    Prop :=
  ∃ moment closed unlogged, Becomes path location (beginning world units) moment
    ∧ (∀ job ∈ moment.jobs, job = .done) ∧ Spares path location moment.world closed
    ∧ StagedReopens moment.store closed ∧ (moment.store.closeAll closed).2 = (unlogged, [])
    ∧ after.files = unlogged.files

variable {path : String} {location : Location} {source : Source} {store store' : Store}
  {world world' : World} {id : HandleId} {writes : List Write}
  {listing : List (String × Except Zip.Error Bytes)}

/-! ## Edits of listed entries -/

/-- Whether bytes are a line edit of what is listed under a name. -/
def EditsListed (listing : List (String × Except Zip.Error Bytes)) (n : String) (bytes : Bytes) :
    Prop :=
  ∃ old, (n, .ok old) ∈ listing ∧ LineEdit old bytes

/-- Whether a listed name has line edits of its bytes, or still cannot be read. -/
inductive Relined : String × Except Zip.Error Bytes → String × Except Zip.Error Bytes → Prop where
  | edited (n : String) {old new : Bytes} (edit : LineEdit old new) :
    Relined (n, .ok old) (n, .ok new)
  | unreadable (n : String) (e : Zip.Error) : Relined (n, .error e) (n, .error e)

theorem EditsListed.remapClass {n : String} {bytes patched : Bytes} {m : LineMapping}
    {report : RemapReport} (h : EditsListed listing n bytes)
    (hremap : Reline.remapClass m bytes = .ok (patched, report)) :
    EditsListed listing n patched := by
  obtain ⟨old, hold, hedit⟩ := h
  exact ⟨old, hold, hedit.trans (.of_remapClass hremap)⟩

/-- Staged line edits of listed entries give a list of line edits, if each name is listed once. -/
theorem forall₂_relined {staged : OrderedTable String Bytes}
    (hnodup : (listing.map Prod.fst).Nodup)
    (hstaged : ∀ n bytes, staged.get? n = some bytes → EditsListed listing n bytes) :
    List.Forall₂ Relined listing (listing.map (overlay staged)) := by
  rw [List.forall₂_map_right_iff]
  refine List.forall₂_same.2 fun ⟨n, content⟩ hmem => ?_
  rw [overlay]
  cases hget : staged.get? n with
  | some bytes =>
    obtain ⟨old, hold, hedit⟩ := hstaged n bytes hget
    -- the entry that was edited is this one
    cases List.inj_on_of_nodup_map hnodup hmem hold rfl
    exact .edited n hedit
  | none =>
    cases content with
    | ok bytes => exact .edited n (.refl bytes)
    | error e => exact .unreadable n e

/-! ## What holds at every moment -/

/-- Whether a store that works on an archive has staged nothing but line edits of what the archive
lists. -/
structure Edits (path : String) (location : Location) (source : Source)
    (listing : List (String × Except Zip.Error Bytes)) (store : Store) (world : World)
    (writes : List Write) : Prop where
  isolated : Isolated path location source world.files
  listing_eq : source.listing world.files = listing
  working : Working location source store world writes
  staged : ∀ n bytes, (stage ∅ writes).get? n = some bytes → EditsListed listing n bytes

/-- Whether a handle is what a store finds for the archive at a place. -/
abbrev Finds (location : Location) (store : Store) (id : HandleId) : Prop :=
  (store.find? (pathOf location)).bind Cell.handle = some id

/-- Whether a job uses the handle of the archive, and writes nothing but a line edit of what is
listed. -/
def Job.Edits (location : Location) (listing : List (String × Except Zip.Error Bytes))
    (store : Store) : Job → Prop
  | waiting _ => True
  | reading _ _ id => Finds location store id
  | remapped entry bytes => EditsListed listing (normalizeEntry entry) bytes
  | writing entry bytes id =>
    Finds location store id
      ∧ EditsListed listing (normalizeEntry entry) bytes
  | done => True

/-- The handle of the archive stays the same once there is one. -/
theorem Job.Edits.mono {job : Job} (h : job.Edits location listing store)
    (hkeeps : ∀ id, Finds location store id → Finds location store' id) :
    job.Edits location listing store' := by
  cases job with
  | waiting unit => trivial
  | reading entry m id => exact hkeeps id h
  | remapped entry bytes => exact h
  | writing entry bytes id => exact ⟨hkeeps id h.1, h.2⟩
  | done => trivial

theorem Edits.spared (h : Edits path location source listing store world writes)
    (hspares : Spares path location world world') :
    Edits path location source listing store world' writes where
  isolated := hspares.isolated h.isolated
  listing_eq := (hspares.listing_eq h.isolated.archived).trans h.listing_eq
  working := h.working.spared hspares
  staged := h.staged

theorem Working.serving_of_found (h : Working location source store world writes)
    (hfound : Finds location store id) :
    Serving location source store world id writes := by
  cases h with
  | fresh empty unwritten =>
    subst empty
    contradiction
  | serving id' serves =>
    cases serves.found.symm.trans hfound
    exact serves

/-- Asked for the archive, the store gives its handle and keeps what is staged. -/
theorem Edits.handle_eq (h : Edits path location source listing store world writes) :
    ∃ store' world' id, store.handle world path = (store', world', .ok id)
      ∧ Edits path location source listing store' world' writes
      ∧ Finds location store' id
      ∧ ∀ i, Finds location store i → Finds location store' i := by
  obtain ⟨store', world', id, hhandle, hserving, hfiles⟩ := h.working.handle_eq h.isolated
  refine ⟨store', world', id, hhandle, ⟨hfiles ▸ h.isolated, ?_, .serving id hserving, h.staged⟩,
    hserving.found, fun i hi => ?_⟩
  · rw [hfiles, h.listing_eq]
  · -- a store that has the handle already does not change
    have hold := (h.working.serving_of_found hi).serves.handle_eq h.isolated.key
    cases hold.symm.trans hhandle
    exact hi

theorem Edits.readEntry (h : Edits path location source listing store world writes)
    (hfound : Finds location store id) {entry : String}
    {bytes : Bytes} (hread : world.readEntry id entry = .ok bytes) :
    EditsListed listing (normalizeEntry entry) bytes := by
  rw [(h.working.serving_of_found hfound).readEntry h.isolated.archived] at hread
  -- what other units have staged are line edits, and what is listed is one of itself
  cases hstaged : (stage ∅ writes).get? (normalizeEntry entry) with
  | some staged =>
    rw [hstaged] at hread
    cases hread
    exact h.staged _ _ hstaged
  | none =>
    rw [hstaged] at hread
    dsimp only at hread
    rw [Handle.answer_eq_ok_iff, contained_eq] at hread
    obtain ⟨⟨n, content⟩, hmem, hname, hcontent⟩ := Zip.exists_mem_of_lastContent hread
    rw [h.listing_eq] at hmem
    cases hname
    cases hcontent
    exact ⟨bytes, hmem, .refl bytes⟩

theorem Edits.writeEntry (h : Edits path location source listing store world writes)
    (hfound : Finds location store id) {entry : String}
    {bytes : Bytes} (hedits : EditsListed listing (normalizeEntry entry) bytes) :
    ∃ writes', Edits path location source listing store (world.writeEntry id entry bytes).1
      writes' := by
  obtain ⟨world', hwrite, hserving, hfiles⟩ :=
    (h.working.serving_of_found hfound).writeEntry ⟨path, entry, bytes⟩
  dsimp only at hwrite
  rw [hwrite]
  refine ⟨writes ++ [⟨path, entry, bytes⟩], hfiles ▸ h.isolated, ?_, .serving id hserving, ?_⟩
  · rw [hfiles, h.listing_eq]
  · intro n b hget
    rw [stage_concat, OrderedTable.get?_insert] at hget
    split at hget
    case isTrue hn =>
      cases hget
      exact hn ▸ hedits
    case isFalse => exact h.staged n b hget

/-- A step of the work on a unit keeps to line edits, and keeps the handle. -/
theorem Edits.step (h : Edits path location source listing store world writes) {job : Job}
    (hjob : job.Edits location listing store) :
    ∃ writes', Edits path location source listing (job.step path store world).1
        (job.step path store world).2.1 writes'
      ∧ (job.step path store world).2.2.Edits location listing (job.step path store world).1
      ∧ ∀ i, Finds location store i → Finds location (job.step path store world).1 i := by
  -- a step that fails leaves the job done, and nothing more is known of it
  cases job with
  | waiting unit =>
    rw [Job.step]
    rcases unit.mapping with - | (- | ⟨line, flat⟩)
    · exact ⟨writes, h, trivial, fun _ hi => hi⟩
    · exact ⟨writes, h, trivial, fun _ hi => hi⟩
    · dsimp only
      cases LineMapping.ofFlat (line :: flat) with
      | error e => exact ⟨writes, h, trivial, fun _ hi => hi⟩
      | ok m =>
        obtain ⟨store', world', id, hhandle, hedits, hfound, hkeeps⟩ := h.handle_eq
        dsimp only
        rw [hhandle]
        exact ⟨writes, hedits, hfound, hkeeps⟩
  | reading entry m id =>
    refine ⟨writes, h, ?_, fun _ hi => hi⟩
    rw [Job.step]
    cases hread : world.readEntry id entry with
    | error e => trivial
    | ok bytes =>
      rw [Job.ofRead]
      cases hremap : remapClass m bytes with
      | error e => trivial
      | ok patched => exact (h.readEntry hjob hread).remapClass hremap
  | remapped entry bytes =>
    obtain ⟨store', world', id, hhandle, hedits, hfound, hkeeps⟩ := h.handle_eq
    rw [Job.step, hhandle]
    exact ⟨writes, hedits, ⟨hfound, hjob⟩, hkeeps⟩
  | writing entry bytes id =>
    obtain ⟨hfound, hedits⟩ := hjob
    obtain ⟨writes', hwritten⟩ := h.writeEntry hfound hedits
    exact ⟨writes', hwritten, trivial, fun _ hi => hi⟩
  | done => exact ⟨writes, h, trivial, fun _ hi => hi⟩

/-- Whether nothing but line edits of what the archive lists is staged, or will be. -/
def Moment.Edits (path : String) (location : Location) (source : Source)
    (listing : List (String × Except Zip.Error Bytes)) (moment : Moment) : Prop :=
  ∃ writes, Batch.Edits path location source listing moment.store moment.world writes
    ∧ ∀ job ∈ moment.jobs, job.Edits location listing moment.store

theorem edits_beginning (hisolated : Isolated path location source world.files)
    (units : List ClassUnit) :
    (beginning world units).Edits path location source (source.listing world.files) := by
  refine ⟨[], ⟨hisolated, rfl, .fresh rfl rfl, nofun⟩, fun job hjob => ?_⟩
  obtain ⟨unit, -, rfl⟩ := List.mem_map.1 hjob
  trivial

theorem Moment.Edits.moves {moment moment' : Moment}
    (h : moment.Edits path location source listing) (hmoves : Moves path location moment moment') :
    moment'.Edits path location source listing := by
  obtain ⟨writes, hedits, hjobs⟩ := h
  cases hmoves with
  | other spares => exact ⟨writes, hedits.spared spares, hjobs⟩
  | @work store store' world world' job job' front back step =>
    -- the units that do not move keep their handles
    obtain ⟨writes', hedits', hjob', hkeeps⟩ :=
      hedits.step (hjobs job (List.mem_append_right _ (List.mem_cons_self ..)))
    rw [step] at hedits' hjob' hkeeps
    refine ⟨writes', hedits', fun other hother => ?_⟩
    rcases List.mem_append.1 hother with hfront | hrest
    · exact (hjobs other (List.mem_append_left _ hfront)).mono hkeeps
    · rcases List.mem_cons.1 hrest with rfl | hback
      · exact hjob'
      · exact (hjobs other (List.mem_append_right _ (List.mem_cons_of_mem _ hback))).mono hkeeps

theorem Moment.Edits.becomes {moment moment' : Moment}
    (h : moment.Edits path location source listing)
    (hbecomes : Becomes path location moment moment') :
    moment'.Edits path location source listing := by
  induction hbecomes with
  | refl => exact h
  | tail _ hmoves ih => exact ih.moves hmoves

theorem Edits.editsListed (h : Edits path location source listing store world writes)
    {cell : Cell} (hcell : cell ∈ store.cells) (hid : cell.handle = some id) {n : String}
    {bytes : Bytes} (hget : (world.handle id).staged.get? n = some bytes) :
    EditsListed listing n bytes := by
  cases h.working with
  | fresh empty unwritten =>
    subst empty
    contradiction
  | serving id' serves =>
    rw [serves.sole cell hcell id hid, Store.handle_of_getElem? serves.opened] at hget
    exact h.staged n bytes hget

/-- Closing the store leaves line edits in the archive. -/
theorem Edits.relined {after : World} (h : Edits path location source listing store world writes)
    (hnodup : (source.directory.entries.map Zip.Entry.name).Nodup)
    (hreopens : StagedReopens store world) (hclose : (store.closeAll world).2 = (after, [])) :
    ∃ source', Archived after.files location source'
      ∧ List.Forall₂ Relined listing (source'.listing after.files) := by
  have hnames : listing.map Prod.fst = source.directory.entries.map Zip.Entry.name := by
    rw [← h.listing_eq, Source.listing, List.map_map]
    rfl
  have hlisted : ∀ n bytes, (stage ∅ writes).get? n = some bytes →
      n ∈ source.directory.entries.map Zip.Entry.name := by
    intro n bytes hget
    obtain ⟨old, hold, -⟩ := h.staged n bytes hget
    rw [← hnames]
    exact List.mem_map.2 ⟨_, hold, rfl⟩
  obtain ⟨source', harchived, hlisting, -⟩ :=
    h.working.listing_closed h.isolated hnodup hlisted hreopens hclose
  rw [h.listing_eq] at hlisting
  refine ⟨source', harchived, ?_⟩
  rw [hlisting]
  exact forall₂_relined (hnames ▸ hnodup) h.staged

/-! ## One unit after the other -/

theorem becomes_work {job job' : Job} (front back : List Job)
    (hstep : job.step path store world = (store', world', job')) :
    Becomes path location ⟨store, world, front ++ job :: back⟩
      ⟨store', world', front ++ job' :: back⟩ :=
  .single (.work front back hstep)

theorem becomes_record (store : Store) (world : World) (jobs : List Job) (level : Log.Level)
    (origin : Log.Source) (text : String) :
    Becomes path location ⟨store, world, jobs⟩ ⟨store, world.record level origin text, jobs⟩ :=
  .single (.other (.record ..))

/-- Reading a class at a stretch takes two steps. -/
theorem becomes_read {unit : ClassUnit} {line : Int} {flat : List Int} {m : LineMapping}
    {answer : Except Archive.Error Bytes} (hmapping : unit.mapping = some (line :: flat))
    (hflat : LineMapping.ofFlat (line :: flat) = .ok m)
    (h : store.read world path unit.classEntry = (store', world', answer)) (front back : List Job) :
    Becomes path location ⟨store, world, front ++ .waiting unit :: back⟩
      ⟨store', world', front ++ .ofRead unit.classEntry m answer :: back⟩ := by
  rw [Store.read] at h
  have hstep : (Job.waiting unit).step path store world
      = match store.handle world path with
        | (store, world, .error _) => (store, world, .done)
        | (store, world, .ok id) => (store, world, .reading unit.classEntry m id) := by
    rw [Job.step, hmapping]
    dsimp only
    rw [hflat]
  rcases hhandle : store.handle world path with ⟨store₁, world₁, e | id⟩
  · rw [hhandle] at h hstep
    cases h
    exact becomes_work front back hstep
  · rw [hhandle] at h hstep
    cases h
    exact (becomes_work front back hstep).trans (becomes_work front back rfl)

/-- Writing a class at a stretch takes two steps. -/
theorem becomes_write {entry : String} {bytes : Bytes} {answer : Except Archive.Error Unit}
    (h : store.write world path entry bytes = (store', world', answer)) (front back : List Job) :
    Becomes path location ⟨store, world, front ++ .remapped entry bytes :: back⟩
      ⟨store', world', front ++ .done :: back⟩ := by
  rw [Store.write] at h
  have hstep : (Job.remapped entry bytes).step path store world
      = match store.handle world path with
        | (store, world, .error _) => (store, world, .done)
        | (store, world, .ok id) => (store, world, .writing entry bytes id) := rfl
  rcases hhandle : store.handle world path with ⟨store₁, world₁, e | id⟩
  · rw [hhandle] at h hstep
    cases h
    exact becomes_work front back hstep
  · rw [hhandle] at h hstep
    cases h
    exact (becomes_work front back hstep).trans (becomes_work front back rfl)

/-- Remapping a class at a stretch takes the steps of its job. -/
theorem becomes_patchLines {unit : ClassUnit} {line : Int} {flat : List Int}
    (hmapping : unit.mapping = some (line :: flat)) {result : Except Saver.PatchError Unit}
    (h : Saver.patchLines store world path unit.classEntry (line :: flat)
      = (store', world', result)) (front back : List Job) :
    Becomes path location ⟨store, world, front ++ .waiting unit :: back⟩
      ⟨store', world', front ++ .done :: back⟩ := by
  rw [Saver.patchLines] at h
  cases hflat : LineMapping.ofFlat (line :: flat) with
  | error e =>
    rw [hflat] at h
    cases h
    refine becomes_work front back ?_
    rw [Job.step, hmapping]
    dsimp only
    rw [hflat]
  | ok m =>
    rw [hflat] at h
    dsimp only at h
    rcases hread : store.read world path unit.classEntry with ⟨store₁, world₁, answer⟩
    have hafter : Becomes path location ⟨store, world, front ++ .waiting unit :: back⟩ _ :=
      becomes_read hmapping hflat hread front back
    rw [hread] at h
    rw [Job.ofRead.eq_def] at hafter
    rcases answer with e | bytes
    · cases h
      exact hafter
    · dsimp only at h hafter
      rcases hremap : remapClass m bytes with e | ⟨patched, report⟩
      · rw [hremap] at h hafter
        cases h
        exact hafter
      · rw [hremap] at h hafter
        dsimp only at h hafter
        rcases hwrite : store₁.write world₁ path unit.classEntry patched
          with ⟨store₂, world₂, e | written⟩
        · rw [hwrite] at h
          cases h
          exact hafter.trans (becomes_write hwrite front back)
        · rw [hwrite] at h
          cases h
          exact (hafter.trans (becomes_write hwrite front back)).trans (becomes_record ..)

/-- The lines of a unit, saved at a stretch, take the steps of its job. -/
theorem becomes_saveLines {unit : ClassUnit} {outcome : LineOutcome}
    (h : Saver.saveLines store world path unit = (store', world', outcome))
    (front back : List Job) :
    Becomes path location ⟨store, world, front ++ .waiting unit :: back⟩
      ⟨store', world', front ++ .done :: back⟩ := by
  rw [Saver.saveLines] at h
  rcases hmapping : unit.mapping with - | (- | ⟨line, flat⟩)
  · rw [hmapping] at h
    cases h
    exact becomes_work front back (by rw [Job.step, hmapping])
  · rw [hmapping] at h
    cases h
    exact becomes_work front back (by rw [Job.step, hmapping])
  · rw [hmapping] at h
    dsimp only at h
    rcases hpatch : Saver.patchLines store world path unit.classEntry (line :: flat)
      with ⟨store₁, world₁, e | done⟩
    · rw [hpatch] at h
      cases h
      exact (becomes_patchLines hmapping hpatch front back).trans (becomes_record ..)
    · rw [hpatch] at h
      cases h
      exact becomes_patchLines hmapping hpatch front back

variable {σ : Type} [TextSink σ] {own : σ → FileSystem → Prop} {sink sink' : σ}
  {contents : Contents} {units : List ClassUnit} {summary summary' : BatchSummary} {after : World}

/-- Saving units in turn is one of the orders in which their jobs can be done. -/
theorem becomes_saveUnits (h : Shows path location source store world writes contents)
    (hsparing : Sparing path location own) (hown : own sink world.files)
    (hsaved : saveUnits path sink store world summary units = (sink', store', world', summary'))
    (front : List Job) :
    Becomes path location ⟨store, world, front ++ units.map .waiting⟩
        ⟨store', world', front ++ units.map fun _ => .done⟩
      ∧ own sink' world'.files := by
  -- the jobs in front are done, and those behind wait
  induction units generalizing sink store world writes contents summary front with
  | nil =>
    cases hsaved
    exact ⟨.refl, hown⟩
  | cons unit units ih =>
    obtain ⟨sink₁, store₁, world₁, world₂, writes₁, hunit, hspares, hlines, hshows, hown₁⟩ :=
      h.saveUnit hsparing hown unit
    rw [saveUnits, hunit] at hsaved
    obtain ⟨hrest, hown'⟩ := ih hshows hown₁ hsaved (front ++ [.done])
    rw [List.append_assoc, List.append_assoc] at hrest
    have hfirst : Becomes path location ⟨store, world, front ++ .waiting unit :: units.map .waiting⟩
        ⟨store₁, world₂, front ++ .done :: units.map .waiting⟩ :=
      .head (.other hspares) (becomes_saveLines hlines front _)
    exact ⟨hfirst.trans hrest, hown'⟩

/-- A batch that works on one unit after the other and succeeds ends well. -/
theorem ends_of_run (hrun : run path units sink world = (sink', after, .ok summary))
    (hisolated : Isolated path location source world.files) (hsparing : Sparing path location own)
    (hown : own sink world.files) (hreopens : Reopening path units sink world) :
    Ends path location units world after := by
  obtain ⟨sink₁, store₁, saved, closed, unlogged, hsaved, hsink, hclose, hafter⟩ :=
    exists_of_run_eq_ok hrun
  obtain ⟨hbecomes, hown'⟩ := becomes_saveUnits (shows_empty hisolated) hsparing hown hsaved []
  have hstaged := hreopens.staged _ _ _ _ hsaved
  have hclosed := hsparing.close sink₁ saved hown'
  rw [hsink] at hstaged hclosed
  refine ⟨_, closed, unlogged, hbecomes, fun job hjob => ?_, hclosed, hstaged, hclose, hafter⟩
  obtain ⟨unit, -, rfl⟩ := List.mem_map.1 hjob
  rfl

/-- Whatever the order in which the units of a batch are worked on: at every moment all that is
staged are line edits of entries that the archive lists, and if the batch ends well the archive
lists the same names in the same order, each with a line edit of what it had. So it is for a batch
that works on one unit after the other and succeeds. -/
theorem edits_throughout (hisolated : Isolated path location source world.files)
    (hnodup : (source.directory.entries.map Zip.Entry.name).Nodup) (units : List ClassUnit) :
    (∀ moment, Becomes path location (beginning world units) moment →
        ∀ cell ∈ moment.store.cells, ∀ id, cell.handle = some id →
          ∀ n bytes, (moment.world.handle id).staged.get? n = some bytes →
            EditsListed (source.listing world.files) n bytes)
      ∧ (∀ after, Ends path location units world after →
        ∃ source', Archived after.files location source'
          ∧ List.Forall₂ Relined (source.listing world.files) (source'.listing after.files))
      ∧ ∀ (own : σ → FileSystem → Prop) sink sink' after summary, Sparing path location own →
        own sink world.files → Reopening path units sink world →
          run path units sink world = (sink', after, .ok summary) →
          ∃ source', Archived after.files location source'
            ∧ List.Forall₂ Relined (source.listing world.files) (source'.listing after.files) := by
  have hmoments (moment : Moment)
      (hbecomes : Becomes path location (beginning world units) moment) :
      moment.Edits path location source (source.listing world.files) :=
    (edits_beginning hisolated units).becomes hbecomes
  have hends (after : World) (hends : Ends path location units world after) :
      ∃ source', Archived after.files location source'
        ∧ List.Forall₂ Relined (source.listing world.files) (source'.listing after.files) := by
    obtain ⟨moment, closed, unlogged, hbecomes, -, hspares, hreopens, hclose, hafter⟩ := hends
    obtain ⟨writes, hedits, -⟩ := hmoments moment hbecomes
    rw [hafter]
    exact (hedits.spared hspares).relined hnodup hreopens hclose
  refine ⟨fun moment hbecomes cell hcell id hid n bytes hget => ?_, hends,
    fun own sink sink' after summary hsparing hown hreopens hrun =>
      hends after (ends_of_run hrun hisolated hsparing hown hreopens)⟩
  obtain ⟨writes, hedits, -⟩ := hmoments moment hbecomes
  exact hedits.editsListed hcell hid hget

/-! ## A batch over one class -/

set_option maxRecDepth 2000 in
theorem listing_classWorld :
    classSource.listing classWorld.files = [("f.class", .ok ClassFile.twoLines)] := by
  decide +kernel

set_option maxRecDepth 2000 in
theorem staged_classesSaved :
    ∃ cell ∈ classesSaved.2.1.cells, cell.handle = some 0
      ∧ (classesSaved.2.2.1.handle 0).staged.get? "f.class" = some relined := by
  decide +kernel

/-- The class is edited twice before the batch ends, and all that changed are its lines. -/
theorem edits_throughout_classUnits :
    ∃ sink after source', run "lib.jar" classUnits (⟨[]⟩ : Memory) classWorld
        = (sink, after, .ok ⟨"lib.jar", 4, 2, 1, 1, 1⟩)
      ∧ EditsListed [("f.class", .ok ClassFile.twoLines)] "f.class" relined
      ∧ Archived after.files ["lib.jar"] source'
      ∧ List.Forall₂ Relined [("f.class", .ok ClassFile.twoLines)]
        (source'.listing after.files) := by
  have hnodup : (classSource.directory.entries.map Zip.Entry.name).Nodup := List.nodup_singleton _
  have hsparing := sparing_memory "lib.jar" ["lib.jar"]
  obtain ⟨hresult, -⟩ := run_classUnits
  rcases hrun : run "lib.jar" classUnits (⟨[]⟩ : Memory) classWorld with ⟨sink, after, result⟩
  rw [hrun] at hresult
  cases hresult
  have hedits := edits_throughout (σ := Memory) isolated_classWorld hnodup classUnits
  rw [listing_classWorld] at hedits
  obtain ⟨hmoments, -, hruns⟩ := hedits
  obtain ⟨source', harchived, hrelined⟩ :=
    hruns _ _ _ _ _ hsparing trivial reopening_classWorld hrun
  refine ⟨sink, after, source', rfl, ?_, harchived, hrelined⟩
  -- what is staged when all units have been saved
  obtain ⟨cell, hcell, hid, hget⟩ := staged_classesSaved
  rcases hsaved : classesSaved with ⟨sink₁, store, saved, summary⟩
  rw [hsaved] at hcell hget
  rw [classesSaved] at hsaved
  obtain ⟨hbecomes, -⟩ :=
    becomes_saveUnits (shows_empty isolated_classWorld) hsparing trivial hsaved []
  exact hmoments _ hbecomes cell hcell 0 hid "f.class" relined hget

end Reline.Batch
