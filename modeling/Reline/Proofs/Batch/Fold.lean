/-
  Reline.Proofs.Batch.Fold

  A batch is the fold of its units over the contents of the archive.

  What becomes of a unit depends on the contents of the archive as the units
  before it have left them: a unit with a mapping that fits gives its class the
  lines of the mapping, all others leave the contents as they are. The store of a
  batch shows these contents from unit to unit, and when the batch has succeeded
  they are what the archive contains.

  Main statement: `run_settles`.
-/

import Reline.Batch
import Reline.Proofs.Batch.Working
import Reline.Proofs.ClassFile.Acceptance
import Reline.Proofs.Zip.Reopening

namespace Reline.Batch

open Archive FileSystem

/-! ## Settling units -/

/-- The bytes that a flat list makes of an entry, if it is a mapping and the entry a class file. -/
def patched? (contents : Contents) (entry : String) (flat : List Int) : Option Bytes :=
  match LineMapping.ofFlat flat, contents (normalizeEntry entry) with
  | .ok m, some (.ok bytes) => (remapClass m bytes).toOption.map Prod.fst
  | _, _ => none

/-- What becomes of the lines of a unit, and the contents after it. -/
def settle (contents : Contents) (unit : ClassUnit) : LineOutcome × Contents :=
  match unit.mapping with
  | none | some [] => (.skipped, contents)
  | some flat =>
    match patched? contents unit.classEntry flat with
    | some bytes =>
      (.persisted, Function.update contents (normalizeEntry unit.classEntry) (some (.ok bytes)))
    | none => (.failed, contents)

/-- What becomes of the lines of units in turn, and the contents after them. -/
def settleAll (contents : Contents) : List ClassUnit → List LineOutcome × Contents
  | [] => ([], contents)
  | unit :: units =>
    let (outcome, contents) := settle contents unit
    let (outcomes, contents) := settleAll contents units
    (outcome :: outcomes, contents)

/-- What the sink answers to the texts of units that are saved in turn. -/
def answers {σ : Type} [TextSink σ] (path : String) (sink : σ) (store : Store) (world : World) :
    List ClassUnit → List (Except Failure Unit)
  | [] => []
  | unit :: units =>
    let (_, _, answer) :=
      TextSink.save sink world unit.qualifiedName unit.entryName unit.content
    let (sink, store, world, _) := Saver.saveUnit path sink store world unit
    answer :: answers path sink store world units

/-- A summary after further units with these outcomes, some of whose texts were refused. -/
def tally (summary : BatchSummary) (outcomes : List LineOutcome) (refused : Nat) :
    BatchSummary where
  source := summary.source
  units := summary.units + outcomes.length
  persisted := summary.persisted + outcomes.count .persisted
  skipped := summary.skipped + outcomes.count .skipped
  failed := summary.failed + outcomes.count .failed
  textFailures := summary.textFailures + refused

variable {path : String} {location : Location} {source : Source} {store : Store}
  {world world' : World} {writes : List Write} {contents : Contents}

theorem tally_count (summary : BatchSummary) (textSaved : Bool) (outcome : LineOutcome)
    (outcomes : List LineOutcome) (refused : Nat) :
    tally (count summary ⟨textSaved, outcome⟩) outcomes refused
      = tally summary (outcome :: outcomes) (refused + if textSaved then 0 else 1) := by
  have hcount (o : LineOutcome) (n : Nat) :
      n + (if outcome = o then 1 else 0) + outcomes.count o
        = n + (outcome :: outcomes).count o := by
    rw [List.count_cons, beq_eq_decide]
    simp only [decide_eq_true_eq]
    omega
  have hlength : summary.units + 1 + outcomes.length
      = summary.units + (outcome :: outcomes).length := by
    rw [List.length_cons]
    omega
  have htexts : summary.textFailures + (if textSaved = true then 0 else 1) + refused
      = summary.textFailures + (refused + if textSaved = true then 0 else 1) := by
    omega
  simp only [tally, count, hcount, hlength, htexts]

/-- Each unit has one of the three outcomes. -/
theorem count_add_count_add_count (outcomes : List LineOutcome) :
    outcomes.count .persisted + outcomes.count .skipped + outcomes.count .failed
      = outcomes.length := by
  induction outcomes with
  | nil => rfl
  | cons outcome outcomes ih =>
    rw [List.length_cons, ← ih]
    cases outcome <;> simp <;> omega

theorem length_settleAll (contents : Contents) (units : List ClassUnit) :
    (settleAll contents units).1.length = units.length := by
  induction units generalizing contents with
  | nil => rfl
  | cons unit units ih => exact congrArg (· + 1) (ih _)

/-! ## Showing contents -/

/-- Whether a store that works on an archive shows contents: those of the archive, with the writes
so far, which went to listed names. -/
structure Shows (path : String) (location : Location) (source : Source) (store : Store)
    (world : World) (writes : List Write) (contents : Contents) : Prop where
  isolated : Isolated path location source world.files
  working : Working location source store world writes
  shown : contents = (source.contents world.files).overlaid (stage ∅ writes)
  listed : ∀ n bytes, (stage ∅ writes).get? n = some bytes → source.contents world.files n ≠ none

theorem Shows.spared (h : Shows path location source store world writes contents)
    (hspares : Spares path location world world') :
    Shows path location source store world' writes contents := by
  have hcontents : source.contents world'.files = source.contents world.files := by
    rw [Source.contents, Source.contents, hspares.listing_eq h.isolated.archived]
  exact ⟨hspares.isolated h.isolated, h.working.spared hspares, hcontents ▸ h.shown,
    hcontents ▸ h.listed⟩

/-- A read through the handle of the archive gives what is shown. -/
theorem Shows.readEntry (h : Shows path location source store world writes contents)
    {id : HandleId} (hserving : Serving location source store world id writes) (entry : String) :
    world.readEntry id entry
      = Handle.answer (pathOf location) entry (contents (normalizeEntry entry)) := by
  rw [hserving.readEntry h.isolated.archived, h.shown, contained_eq]
  cases hstaged : (stage ∅ writes).get? (normalizeEntry entry) with
  | none => rw [Contents.overlaid_of_none hstaged]
  | some bytes =>
    -- what is staged is shown because its name is listed
    rw [Contents.overlaid_of_some (h.listed _ _ hstaged) hstaged]
    rfl

/-- Asked for the archive, the store gives its handle and shows the same. -/
theorem Shows.handle (h : Shows path location source store world writes contents) :
    ∃ store' world' id, store.handle world path = (store', world', .ok id)
      ∧ Shows path location source store' world' writes contents
      ∧ Serving location source store' world' id writes ∧ world'.files = world.files := by
  obtain ⟨hisolated, hworking, hshown, hlisted⟩ := h
  obtain ⟨store', world', id, hhandle, hserving, hfiles⟩ := hworking.handle_eq hisolated
  rw [← hfiles] at hisolated hshown hlisted
  exact ⟨store', world', id, hhandle, ⟨hisolated, .serving id hserving, hshown, hlisted⟩, hserving,
    hfiles⟩

theorem Shows.read (h : Shows path location source store world writes contents) (entry : String) :
    ∃ store' world', store.read world path entry
        = (store', world', Handle.answer (pathOf location) entry (contents (normalizeEntry entry)))
      ∧ Shows path location source store' world' writes contents
      ∧ world'.files = world.files := by
  obtain ⟨store', world', id, hhandle, hshows, hserving, hfiles⟩ := h.handle
  refine ⟨store', world', ?_, hshows, hfiles⟩
  rw [Store.read, hhandle]
  dsimp only
  rw [hshows.readEntry hserving]

/-- A write through the handle to a listed name succeeds, and is what this name shows from then
on. -/
theorem Shows.writeEntry (h : Shows path location source store world writes contents)
    {id : HandleId} (hserving : Serving location source store world id writes) {entry : String}
    (hentry : contents (normalizeEntry entry) ≠ none) (bytes : Bytes) :
    ∃ world', world.writeEntry id entry bytes = (world', .ok ())
      ∧ Shows path location source store world' (writes ++ [⟨path, entry, bytes⟩])
        (Function.update contents (normalizeEntry entry) (some (.ok bytes)))
      ∧ world'.files = world.files := by
  obtain ⟨hisolated, -, hshown, hlisted⟩ := h
  have hname : source.contents world.files (normalizeEntry entry) ≠ none := by
    intro hnone
    rw [hshown, Contents.overlaid, hnone] at hentry
    exact hentry rfl
  obtain ⟨world', hwrite, hserving', hfiles⟩ := hserving.writeEntry ⟨path, entry, bytes⟩
  refine ⟨world', hwrite, ⟨hfiles ▸ hisolated, .serving id hserving', ?_, ?_⟩, hfiles⟩
  · rw [hfiles, stage_concat, Contents.overlaid_insert hname, hshown]
  · -- the new name is listed, as all names were that are staged already
    intro n b hget
    rw [stage_concat, OrderedTable.get?_insert] at hget
    rw [hfiles]
    split at hget
    case isTrue hn => exact hn ▸ hname
    case isFalse => exact hlisted n b hget

/-- A write to a listed name succeeds, and is what this name shows from then on. -/
theorem Shows.write (h : Shows path location source store world writes contents) {entry : String}
    (hentry : contents (normalizeEntry entry) ≠ none) (bytes : Bytes) :
    ∃ store' world' writes', store.write world path entry bytes = (store', world', .ok ())
      ∧ Shows path location source store' world' writes'
        (Function.update contents (normalizeEntry entry) (some (.ok bytes)))
      ∧ world'.files = world.files := by
  obtain ⟨store', world₁, id, hhandle, hshows₁, hserving, hfiles₁⟩ := h.handle
  obtain ⟨world₂, hwrite, hshows₂, hfiles₂⟩ := hshows₁.writeEntry hserving hentry bytes
  refine ⟨store', world₂, writes ++ [⟨path, entry, bytes⟩], ?_, hshows₂, hfiles₂.trans hfiles₁⟩
  rw [Store.write, hhandle]
  dsimp only
  rw [hwrite]

/-! ## Saving units -/

/-- A flat list that makes something of an entry is put into the archive. -/
theorem Shows.patchLines_of_some (h : Shows path location source store world writes contents)
    {entry : String} {flat : List Int} {bytes : Bytes}
    (hpatched : patched? contents entry flat = some bytes) :
    ∃ store' world' writes',
      Saver.patchLines store world path entry flat = (store', world', .ok ())
        ∧ Shows path location source store' world' writes'
          (Function.update contents (normalizeEntry entry) (some (.ok bytes)))
        ∧ world'.files = world.files := by
  rw [patched?] at hpatched
  split at hpatched
  case h_2 => contradiction
  case h_1 m old hmapping hcontent =>
    obtain ⟨new, report, hremap⟩ : ∃ new report, remapClass m old = .ok (new, report) := by
      cases hremap : remapClass m old with
      | error e =>
        rw [hremap] at hpatched
        contradiction
      | ok pair => exact ⟨pair.1, pair.2, rfl⟩
    rw [hremap] at hpatched
    cases hpatched
    -- the write goes to the name that was just read, so this name is listed
    obtain ⟨store₁, world₁, hread, hshows₁, hfiles₁⟩ := h.read entry
    obtain ⟨store₂, world₂, writes', hwrite, hshows₂, hfiles₂⟩ :=
      hshows₁.write (hcontent ▸ Option.some_ne_none _) new
    have hpatch : Saver.patchLines store world path entry flat = (store₂,
        world₂.record .debug .saver (Saver.remappedText entry report), .ok ()) := by
      rw [Saver.patchLines, hmapping, hread, Handle.answer_eq_ok_iff.2 hcontent]
      dsimp only
      rw [hremap]
      dsimp only
      rw [hwrite]
    exact ⟨store₂, _, writes', hpatch, hshows₂.spared (.record ..), hfiles₂.trans hfiles₁⟩

theorem Shows.patchLines_of_none (h : Shows path location source store world writes contents)
    {entry : String} {flat : List Int} (hpatched : patched? contents entry flat = none) :
    ∃ store' world' e,
      Saver.patchLines store world path entry flat = (store', world', .error e)
        ∧ Shows path location source store' world' writes contents
        ∧ world'.files = world.files := by
  rw [Saver.patchLines]
  rw [patched?] at hpatched
  cases hmapping : LineMapping.ofFlat flat with
  | error e => exact ⟨store, world, _, rfl, h, rfl⟩
  | ok m =>
    obtain ⟨store', world', hread, hshows, hfiles⟩ := h.read entry
    dsimp only
    rw [hread]
    cases hanswer : Handle.answer (pathOf location) entry (contents (normalizeEntry entry)) with
    | error e => exact ⟨store', world', _, rfl, hshows, hfiles⟩
    | ok bytes =>
      rw [hmapping, Handle.answer_eq_ok_iff.1 hanswer] at hpatched
      dsimp only at hpatched ⊢
      cases hremap : remapClass m bytes with
      | error e => exact ⟨store', world', _, rfl, hshows, hfiles⟩
      | ok pair =>
        rw [hremap] at hpatched
        contradiction

theorem Shows.saveLines (h : Shows path location source store world writes contents)
    (unit : ClassUnit) :
    ∃ store' world' writes',
      Saver.saveLines store world path unit = (store', world', (settle contents unit).1)
        ∧ Shows path location source store' world' writes' (settle contents unit).2
        ∧ world'.files = world.files := by
  rw [Saver.saveLines, settle]
  rcases unit.mapping with - | (- | ⟨line, flat⟩)
  · exact ⟨store, world, writes, rfl, h, rfl⟩
  · exact ⟨store, world, writes, rfl, h, rfl⟩
  · dsimp only
    cases hpatched : patched? contents unit.classEntry (line :: flat) with
    | some bytes =>
      obtain ⟨store', world', writes', hpatch, hshows, hfiles⟩ := h.patchLines_of_some hpatched
      rw [hpatch]
      exact ⟨store', world', writes', rfl, hshows, hfiles⟩
    | none =>
      obtain ⟨store', world', e, hpatch, hshows, hfiles⟩ := h.patchLines_of_none hpatched
      rw [hpatch]
      exact ⟨store', _, writes, rfl, hshows.spared (.record ..), hfiles⟩

variable {σ : Type} [TextSink σ] {own : σ → FileSystem → Prop} {sink : σ}

/-- Saving the text of a unit spares the archive, whatever the sink answers. -/
theorem Sparing.saveText (hsparing : Sparing path location own) (hown : own sink world.files)
    (unit : ClassUnit) :
    ∃ sink' world', Saver.saveText sink world unit = (sink', world',
        (TextSink.save sink world unit.qualifiedName unit.entryName unit.content).2.2.toBool)
      ∧ own sink' world'.files ∧ Spares path location world world' := by
  obtain ⟨hown', hspares⟩ :=
    hsparing.save sink world unit.qualifiedName unit.entryName unit.content hown
  rw [Saver.saveText]
  generalize TextSink.save sink world unit.qualifiedName unit.entryName unit.content = saved
    at hown' hspares ⊢
  obtain ⟨sink', world', answer⟩ := saved
  cases answer with
  | ok done => exact ⟨sink', world', rfl, hown', hspares⟩
  | error e => exact ⟨sink', _, rfl, hown', hspares.trans (.record ..)⟩

/-- Saving a unit settles it: first the sink answers, then its lines are remapped. -/
theorem Shows.saveUnit (hsparing : Sparing path location own)
    (h : Shows path location source store world writes contents) (hown : own sink world.files)
    (unit : ClassUnit) :
    ∃ sink' store' world₁ world' writes',
      Saver.saveUnit path sink store world unit = (sink', store', world',
          ⟨(TextSink.save sink world unit.qualifiedName unit.entryName unit.content).2.2.toBool,
            (settle contents unit).1⟩)
        ∧ Spares path location world world₁
        ∧ Saver.saveLines store world₁ path unit = (store', world', (settle contents unit).1)
        ∧ Shows path location source store' world' writes' (settle contents unit).2
        ∧ own sink' world'.files := by
  obtain ⟨sink', world₁, htext, hown', hspares⟩ := hsparing.saveText hown unit
  obtain ⟨store', world', writes', hlines, hshows, hfiles⟩ := (h.spared hspares).saveLines unit
  refine ⟨sink', store', world₁, world', writes', ?_, hspares, hlines, hshows, hfiles ▸ hown'⟩
  rw [Saver.saveUnit, htext]
  dsimp only
  rw [hlines]

/-- Saving units in turn settles them, counts what became of them, and counts the texts that the
sink refused. -/
theorem Shows.saveUnits (hsparing : Sparing path location own)
    (h : Shows path location source store world writes contents) (hown : own sink world.files)
    (summary : BatchSummary) (units : List ClassUnit) :
    ∃ sink' store' world' writes',
      saveUnits path sink store world summary units = (sink', store', world',
          tally summary (settleAll contents units).1
            ((answers path sink store world units).countP fun answer => !answer.toBool))
        ∧ Shows path location source store' world' writes' (settleAll contents units).2
        ∧ own sink' world'.files := by
  -- what a unit leaves behind is what the rest of the batch starts from
  induction units generalizing sink store world summary writes contents with
  | nil => exact ⟨sink, store, world, writes, rfl, h, hown⟩
  | cons unit units ih =>
    obtain ⟨sink₁, store₁, -, world₁, writes₁, hunit, -, -, hshows, hown₁⟩ :=
      h.saveUnit hsparing hown unit
    obtain ⟨sink', store', world', writes', hrest, hshows', hown'⟩ :=
      ih hshows hown₁ (count summary ⟨_, (settle contents unit).1⟩)
    refine ⟨sink', store', world', writes', ?_, hshows', hown'⟩
    rw [Batch.saveUnits, hunit]
    dsimp only
    rw [hrest, tally_count, answers, hunit]
    dsimp only
    rw [List.countP_cons, settleAll]
    cases (TextSink.save sink world unit.qualifiedName unit.entryName unit.content).2.2 <;> rfl

/-! ## Running a batch -/

variable {units : List ClassUnit} {sink' : σ} {after : World} {summary : BatchSummary}

/-- Whether what a batch puts into the files of archives reopens. -/
structure Reopening (path : String) (units : List ClassUnit) (sink : σ) (world : World) : Prop where
  staged : ∀ sink' store saved summary,
    saveUnits path sink .empty world (start path) units = (sink', store, saved, summary) →
      StagedReopens store (TextSink.close sink' saved).2.1

/-- A batch that succeeds has saved its units, closed the sink, and then closed the store without a
failure. -/
theorem exists_of_run_eq_ok (h : run path units sink world = (sink', after, .ok summary)) :
    ∃ sink₁ store₁ saved closed unlogged,
      saveUnits path sink .empty world (start path) units = (sink₁, store₁, saved, summary)
        ∧ (TextSink.close sink₁ saved).2.1 = closed
        ∧ (store₁.closeAll closed).2 = (unlogged, []) ∧ after.files = unlogged.files := by
  rw [run] at h
  generalize hsaved : saveUnits path sink .empty world (start path) units = result at h
  obtain ⟨sink₁, store₁, saved, summary₁⟩ := result
  dsimp only at h
  generalize hsink : TextSink.close sink₁ saved = result at h
  obtain ⟨sink₂, closed, answer⟩ := result
  dsimp only at h
  generalize hclose : store₁.closeAll closed = result at h
  obtain ⟨store₂, unlogged, failures⟩ := result
  dsimp only at h
  cases failures with
  | cons failure failures => cases h
  | nil =>
    cases answer with
    | error e => cases h
    | ok done =>
      cases h
      refine ⟨sink₁, store₁, saved, closed, unlogged, rfl, ?_, ?_, rfl⟩
      · rw [hsink]
      · rw [hclose]

theorem shows_empty (h : Isolated path location source world.files) :
    Shows path location source .empty world [] (source.contents world.files) where
  isolated := h
  working := .fresh rfl rfl
  shown := by
    funext n
    exact (Contents.overlaid_of_none rfl).symm
  listed _ _ hget := absurd hget nofun

/-- A batch that succeeds over a sink that spares its archive leaves the contents that settling its
units in turn gives, by any path that leads to the archive, and its summary counts what became of
the units and the texts that the sink refused. -/
theorem run_settles (hrun : run path units sink world = (sink', after, .ok summary))
    (hisolated : Isolated path location source world.files)
    (hnodup : (source.directory.entries.map Zip.Entry.name).Nodup)
    (hsparing : Sparing path location own) (hown : own sink world.files)
    (hreopens : Reopening path units sink world)
    {outcomes : List LineOutcome} {final : Contents}
    (hsettle : settleAll (source.contents world.files) units = (outcomes, final)) :
    Store.key after.files path = .ok (pathOf location)
      ∧ (∀ p entry, Store.key after.files p = .ok (pathOf location) →
        (Store.empty.read after p entry).2.2
          = Handle.answer (pathOf location) entry (final (normalizeEntry entry)))
      ∧ summary.units = units.length
      ∧ summary.persisted = outcomes.count .persisted
      ∧ summary.skipped = outcomes.count .skipped
      ∧ summary.failed = outcomes.count .failed
      ∧ summary.persisted + summary.skipped + summary.failed = summary.units
      ∧ summary.textFailures
        = (answers path sink .empty world units).countP fun answer => !answer.toBool := by
  obtain ⟨sink₁, store₁, saved, closed, unlogged, hsaved, hsink, hclose, hafter⟩ :=
    exists_of_run_eq_ok hrun
  obtain ⟨sink₂, store₂, saved', writes, hunits, hshows, hown'⟩ :=
    (shows_empty hisolated).saveUnits hsparing hown (start path) units
  have hlength := length_settleAll (source.contents world.files) units
  rw [hsettle] at hunits hshows hlength
  dsimp only at hunits hshows hlength
  cases hsaved.symm.trans hunits
  have hcounts := count_add_count_add_count outcomes
  -- the sink is closed before the store, and spares the archive once more
  obtain ⟨hisolated', hworking, hshown, hlisted⟩ :=
    hshows.spared (hsink ▸ hsparing.close sink₁ saved hown')
  have hstaged := hreopens.staged _ _ _ _ hunits
  rw [hsink] at hstaged
  obtain ⟨source', harchived, hlisting, hkey⟩ := hworking.listing_closed hisolated' hnodup
    (fun n bytes hget => Source.contents_ne_none.1 (hlisted n bytes hget)) hstaged hclose
  rw [← hafter] at harchived hlisting hkey
  have hsummary (refused : Nat) : tally (start path) outcomes refused
      = ⟨path, outcomes.length, outcomes.count .persisted, outcomes.count .skipped,
        outcomes.count .failed, refused⟩ := by
    simp only [tally, start, Nat.zero_add]
  rw [hsummary]
  refine ⟨hkey, fun p entry hp => ?_, hlength, rfl, rfl, rfl, hcounts, rfl⟩
  -- the archive lists what it listed before with the writes over it, which is what was shown
  rw [harchived.read_eq (Store.ready_empty ..) hp, contained_eq, Source.contents, hlisting,
    lastContent_map_overlay, hshown]
  rfl

/-! ## A batch over one class -/

/-- A sink that keeps texts and refuses those without characters. -/
structure Memory where
  texts : List String

instance : TextSink Memory where
  save sink world _ _ content :=
    if content = "" then (sink, world, .error (.ofText "no text"))
    else (⟨sink.texts ++ [content]⟩, world, .ok ())
  close sink world := (sink, world, .ok ())

theorem sparing_memory (path : String) (location : Location) :
    Sparing path location fun (_ : Memory) _ => True where
  save sink world qualifiedName entryName content _ := by
    refine ⟨trivial, ?_⟩
    rw [TextSink.save, instTextSinkMemory]
    dsimp only
    split <;> exact .refl ..
  close sink world _ := .refl ..

/-- A class file as an item. -/
def classItem (bytes : Bytes) : Zip.Item :=
  .ofData "f.class" .stored Zip.defaultDate 0 Zip.defaultMode bytes

/-- A world with an archive of one class. -/
def classWorld : World :=
  .ofFiles {
    nodes := [(["lib.jar"], .file 0)]
    files := #[⟨(Zip.encode [classItem ClassFile.twoLines] []).toArray, newFileMode, .disk⟩]
    current := [] }

/-- The archive as it is opened. -/
def classSource : Source :=
  ⟨0, (classWorld.files.data 0).bytes.size, ⟨[(classItem ClassFile.twoLines).entry 0], []⟩⟩

theorem fits_classItem {bytes : Bytes} (h : bytes.length = ClassFile.twoLines.length) :
    Zip.Fits [classItem bytes] [] := by
  have hname : (classItem bytes).nameBytes.length = 7 := rfl
  refine Zip.fits_of_length_le (List.forall_mem_singleton.2 ?_)
    (List.forall_mem_singleton.2 (Nat.le_of_eq (congrArg₂ (· + ·) hname h))) ?_ ?_
  · exact Zip.fits_ofData (by decide) (.inl rfl) (by decide) (by decide) (by decide)
      (by rw [h]; decide)
  · exact (by decide : 1 < 2 ^ 16)
  · exact (by decide : 1 * (46 + (7 + ClassFile.twoLines.length)) < 2 ^ 32)

theorem isolated_classWorld : Isolated "lib.jar" ["lib.jar"] classSource classWorld.files where
  archived.wellFormed := wellFormed_of_forall (fun _ hname => absurd hname List.not_mem_nil) <| by
    intro pair hpair id hid
    cases List.mem_singleton.1 hpair
    cases hid
    decide
  archived.place := rfl
  archived.opens := Handle.openAt_eq_ok_iff.2
    ⟨0, classSource.directory, rfl, rfl, Zip.Directory.read_encode (fits_classItem rfl), rfl⟩
  key := rfl
  free := rfl

/-- Two units for the class, one for a class that is missing, and one without a mapping and a
text. -/
def classUnits : List ClassUnit :=
  [⟨"f", "f.java", "class f", some [10, 20, 12, 22]⟩, ⟨"/f", "f.java", "class f", some [20, 30]⟩,
    ⟨"g", "g.java", "class g", some [1, 2]⟩, ⟨"f", "f.java", "", none⟩]

/-- The class with the lines that the units give it. -/
def relined : Bytes := (ClassFile.twoLines.set 95 30).set 99 22

/-- What saving these units leads to. -/
def classesSaved : Memory × Store × World × BatchSummary :=
  saveUnits "lib.jar" (⟨[]⟩ : Memory) .empty classWorld (start "lib.jar") classUnits

set_option maxRecDepth 2000 in
theorem rebuiltItems_classesSaved :
    ∀ cell ∈ classesSaved.2.1.cells, ∀ id ∈ cell.handle,
      ∀ source ∈ (classesSaved.2.2.1.handle id).source,
        Handle.rebuiltItems (classesSaved.2.2.1.files.data source.file).bytes source.directory
            (classesSaved.2.2.1.handle id).staged
          = .ok [{ classItem relined with mode := 0o100644 }]
          ∧ source.directory.comment = [] := by
  decide +kernel

theorem reopens_relined : Zip.Reopens [{ classItem relined with mode := 0o100644 }] [] :=
  Zip.reopens_of_fits (fits_classItem (by rw [relined, List.length_set, List.length_set]))

theorem reopening_classWorld : Reopening "lib.jar" classUnits (⟨[]⟩ : Memory) classWorld where
  staged sink store saved summary hsaved cell hcell id hid _ source hsource items hrebuilt := by
    have hitems := rebuiltItems_classesSaved
    rw [classesSaved, hsaved] at hitems
    obtain ⟨hthese, hcomment⟩ := hitems cell hcell id hid source hsource
    cases hthese.symm.trans hrebuilt
    rw [hcomment]
    exact reopens_relined

set_option maxRecDepth 2000 in
theorem run_classUnits :
    (run "lib.jar" classUnits (⟨[]⟩ : Memory) classWorld).2.2 = .ok ⟨"lib.jar", 4, 2, 1, 1, 1⟩
      ∧ (settleAll (classSource.contents classWorld.files) classUnits).2 "f.class"
        = some (.ok relined) := by
  decide +kernel

/-- Both units for the class count, the second one on top of the first. -/
theorem run_settles_classUnits :
    ∃ sink after, run "lib.jar" classUnits (⟨[]⟩ : Memory) classWorld
        = (sink, after, .ok ⟨"lib.jar", 4, 2, 1, 1, 1⟩)
      ∧ (Store.empty.read after "lib.jar" "//f.class").2.2 = .ok relined := by
  have hnodup : (classSource.directory.entries.map Zip.Entry.name).Nodup := List.nodup_singleton _
  have hname : normalizeEntry "//f.class" = "f.class" := rfl
  obtain ⟨hresult, hfinal⟩ := run_classUnits
  rcases hrun : run "lib.jar" classUnits (⟨[]⟩ : Memory) classWorld with ⟨sink, after, result⟩
  rw [hrun] at hresult
  cases hresult
  rcases hsettle : settleAll (classSource.contents classWorld.files) classUnits
    with ⟨outcomes, final⟩
  rw [hsettle] at hfinal
  obtain ⟨hkey, hreads, -⟩ := run_settles hrun isolated_classWorld hnodup
    (sparing_memory "lib.jar" ["lib.jar"]) trivial reopening_classWorld hsettle
  refine ⟨sink, after, rfl, ?_⟩
  rw [hreads "lib.jar" "//f.class" hkey, hname]
  exact Handle.answer_eq_ok_iff.2 hfinal

end Reline.Batch
