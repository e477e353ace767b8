/-
  Reline.Proofs.Batch.Orders

  Batches that end the same, whatever the order.

  Any number of workers may take units a step further, one or the other, in any
  order. If the sink leaves the archive alone and no two units with a mapping are
  for the same class, the archive is the same in the end as if the units had been
  saved one after the other, and the same is counted. What the sink answers may
  depend on the order; it does not for a zip archive that takes texts of different
  names: whatever the order, none is refused, and all are in the archive that the
  sink leaves.

  Main statement: `worked_endsAsInTurn`.
-/

import Reline.Proofs.Batch.Settling
import Reline.Proofs.Sink.Zip

namespace Reline.Batch

open Archive FileSystem

variable {σ : Type} [TextSink σ] {path : String} {unit : ClassUnit} {common common' : Common σ}
  {stage : Stage} {own : σ → FileSystem → Prop} {fs : FileSystem}
  {staged : OrderedTable String Bytes} {places : List Location}

/-! ## Ending a batch -/

theorem Common.files_conclude (path : String) (common : Common σ) :
    (common.conclude path).2.1.files
      = (common.store.closeAll (TextSink.close common.sink common.world).2.1).2.1.files := by
  rw [conclude]
  rcases TextSink.close common.sink common.world with ⟨sink, world, closed⟩
  dsimp only
  rcases common.store.closeAll world with ⟨store, world', failures⟩
  dsimp only
  split
  · rfl
  · cases closed <;> rfl

/-- Failures to close archives are reported before all others. -/
theorem Common.conclude_eq_persist_iff {path : String} {common : Common σ}
    {failures : List CloseFailure} :
    (common.conclude path).2.2 = .error (.persist path failures)
      ↔ failures ≠ [] ∧
        (common.store.closeAll (TextSink.close common.sink common.world).2.1).2.2 = failures := by
  rw [conclude]
  rcases TextSink.close common.sink common.world with ⟨sink, world, closed⟩
  dsimp only
  rcases common.store.closeAll world with ⟨store, world', these⟩
  dsimp only
  cases these with
  | nil =>
    have hnone : ¬ (failures ≠ [] ∧ [] = failures) := fun ⟨hne, heq⟩ => hne heq.symm
    cases closed with
    | error e => exact iff_of_false nofun hnone
    | ok done => exact iff_of_false nofun hnone
  | cons failure rest =>
    constructor
    · intro h
      cases h
      exact ⟨List.cons_ne_nil _ _, rfl⟩
    · rintro ⟨-, rfl⟩
      rfl

/-- What is left of the archive of a batch does not depend on how the same writes came to be
staged. -/
theorem Settled.conclude (h : Settled fs path own staged common)
    (h' : Settled fs path own staged common') (havoiding : Avoiding (archivePlaces fs path) own) :
    (common.conclude path).2.1.files.contents path
        = (common'.conclude path).2.1.files.contents path
      ∧ (∀ l ∈ archivePlaces fs path, (common.conclude path).2.1.files.content? l
        = (common'.conclude path).2.1.files.content? l)
      ∧ ∀ failures, (common.conclude path).2.2 = .error (.persist path failures)
        ↔ (common'.conclude path).2.2 = .error (.persist path failures) := by
  have hclose := havoiding.close common.sink common.world h.own
  have hclose' := havoiding.close common'.sink common'.world h'.own
  have hfiles := h.files.trans (hclose.files h.files.wellFormed)
  have hfiles' := h'.files.trans (hclose'.files h'.files.wellFormed)
  have hholding := h.holding.mono hclose.handles
  have hholding' := h'.holding.mono hclose'.handles
  obtain ⟨hfailures, pair, halike⟩ := hholding'.closeAll_alike hholding hfiles' hfiles
  refine ⟨?_, fun l hl => ?_, fun failures => ?_⟩
  · rw [Common.files_conclude, Common.files_conclude]
    exact hholding'.contents_closeAll hholding hfiles' hfiles
  · rw [Common.files_conclude, Common.files_conclude]
    exact halike.content?_eq hl
  · rw [Common.conclude_eq_persist_iff, Common.conclude_eq_persist_iff, hfailures]

/-! ## Ending as in turn -/

/-- Whether a batch, of which all units are done, ends as one that saves them one after the other:
with the same archive, the same failures to close it, and the same counts. -/
structure EndsAsInTurn (path : String) (units : List ClassUnit) (sink : σ) (world : World)
    (common : Common σ) : Prop where
  archive : (common.conclude path).2.1.files.contents path
    = (run path units sink world).2.1.files.contents path
  places : ∀ l ∈ archivePlaces world.files path,
    (common.conclude path).2.1.files.content? l = (run path units sink world).2.1.files.content? l
  failures : ∀ failures, (common.conclude path).2.2 = .error (.persist path failures)
    ↔ (run path units sink world).2.2 = .error (.persist path failures)
  persisted : common.summary.persisted = (savedInTurn path units sink world).summary.persisted
  skipped : common.summary.skipped = (savedInTurn path units sink world).summary.skipped
  failed : common.summary.failed = (savedInTurn path units sink world).summary.failed
  total : common.summary.units = units.length
  sum : common.summary.persisted + common.summary.skipped + common.summary.failed = units.length

omit [TextSink σ] in
/-- The counts of the lines are those of what becomes of each unit. -/
theorem Stands.counts {progress : Progress σ} (h : Stands fs path own progress staged)
    (hover : progress.IsOver) {units : List ClassUnit}
    (hunits : progress.tasks.map Task.unit = units) :
    ∃ refused, progress.common.summary
      = tally (start path) (units.map (verdict (shown fs path))) refused := by
  have hverdicts : progress.tasks.map (fun task => verdict (shown fs path) task.unit)
      = units.map (verdict (shown fs path)) := by
    rw [← hunits, List.map_map]
    rfl
  rw [h.summary_of_isOver hover, hverdicts]
  exact ⟨_, rfl⟩

/-- Whatever the order in which the work is done, it ends as if it had been done in turn. -/
theorem endsAsInTurn_of_isOver {units : List ClassUnit} {sink : σ} {world : World}
    (hfiles : WellFormed world.files) (hapart : Apart units)
    (havoiding : Avoiding (archivePlaces world.files path) own) (hown : own sink world.files)
    {order : List Nat} (hover : (worked path units sink world order).IsOver) :
    EndsAsInTurn path units sink world (worked path units sink world order).common := by
  have hunits := map_unit_worked path units sink world
  obtain ⟨order', hcommon', hover'⟩ := exists_order_savedInTurn path units sink world
  obtain ⟨staged, hafter⟩ := exists_stands_worked hfiles hapart havoiding hown order
  obtain ⟨staged', hafter'⟩ := exists_stands_worked hfiles hapart havoiding hown order'
  -- the same is staged in the end
  have hsame : staged' = staged := OrderedTable.eq_of_get? fun n bytes => by
    rw [hafter.staged_of_isOver hover, hafter'.staged_of_isOver hover', hunits, hunits]
  subst hsame
  obtain ⟨refused, hsummary⟩ := hafter.counts hover (hunits order)
  obtain ⟨refused', hsummary'⟩ := hafter'.counts hover' (hunits order')
  obtain ⟨harchive, hplaces, hfailures⟩ := hafter.settled.conclude hafter'.settled havoiding
  rw [hcommon'] at harchive hplaces hfailures hsummary'
  rw [← run_eq_conclude] at harchive hplaces hfailures
  have hsum := count_add_count_add_count (units.map (verdict (shown world.files path)))
  have hlength : (units.map (verdict (shown world.files path))).length = units.length :=
    List.length_map ..
  exact {
    archive := harchive
    places := hplaces
    failures := hfailures
    persisted := by rw [hsummary, hsummary']; rfl
    skipped := by rw [hsummary, hsummary']; rfl
    failed := by rw [hsummary, hsummary']; rfl
    total := by
      rw [hsummary, ← hlength]
      exact Nat.zero_add _
    sum := by
      rw [hsummary, ← hlength, ← hsum]
      simp only [tally, start, Nat.zero_add] }

/-! ## What the sink answers -/

/-- What the sink answered to the text of a unit, once it was asked. -/
def Stage.answered? : Stage → Option Bool
  | waiting => none
  | offered textSaved => some textSaved
  | reading textSaved _ _ => some textSaved
  | remapped textSaved _ _ => some textSaved
  | writing textSaved _ _ _ => some textSaved
  | done outcome | counted outcome => some outcome.textSaved

/-- A step of the work on a unit that leaves the sink and the files alone. -/
structure Passes (textSaved : Bool) (common : Common σ) (result : Common σ × Stage) : Prop where
  sink : result.1.sink = common.sink
  files : result.1.world.files = common.world.files
  answered : result.2.answered? = some textSaved

omit [TextSink σ] in
theorem passes_fail (common : Common σ) (path : String) (unit : ClassUnit) (textSaved : Bool)
    (e : Saver.PatchError) : Passes textSaved common (common.fail path unit textSaved e) :=
  ⟨rfl, rfl, rfl⟩

/-- Once the sink has answered, the work on a unit is about its lines only. -/
theorem passes_next (path : String) (unit : ClassUnit) (common : Common σ) {textSaved : Bool}
    (h : stage.answered? = some textSaved) :
    Passes textSaved common (stage.next path unit common) := by
  -- the steps about lines ask the store, which changes no file, or write to a handle
  cases stage with
  | waiting => contradiction
  | offered saved =>
    cases h
    rw [Stage.next]
    rcases unit.mapping with - | (- | ⟨line, flat⟩)
    · exact ⟨rfl, rfl, rfl⟩
    · exact ⟨rfl, rfl, rfl⟩
    · dsimp only
      cases LineMapping.ofFlat (line :: flat) with
      | error e => exact passes_fail ..
      | ok m =>
        rcases hhandle : common.store.handle common.world path with ⟨store, world, result⟩
        have hfiles : world.files = common.world.files := (Store.asks_of_handle hhandle).files_eq
        cases result <;> exact ⟨rfl, hfiles, rfl⟩
  | reading saved m id =>
    cases h
    rw [Stage.next, Common.ofRead.eq_def]
    cases common.world.readEntry id unit.classEntry with
    | error e => exact passes_fail ..
    | ok bytes =>
      dsimp only
      cases remapClass m bytes with
      | error e => exact passes_fail ..
      | ok pair => exact ⟨rfl, rfl, rfl⟩
  | remapped saved bytes report =>
    cases h
    rw [Stage.next]
    rcases hhandle : common.store.handle common.world path with ⟨store, world, result⟩
    have hfiles : world.files = common.world.files := (Store.asks_of_handle hhandle).files_eq
    cases result <;> exact ⟨rfl, hfiles, rfl⟩
  | writing saved bytes report id =>
    cases h
    have hfiles := files_writeEntry common.world id unit.classEntry bytes
    rw [Stage.next]
    rcases hwrite : common.world.writeEntry id unit.classEntry bytes with ⟨world, result⟩
    rw [hwrite] at hfiles
    cases result <;> exact ⟨rfl, hfiles, rfl⟩
  | done outcome =>
    cases h
    exact ⟨rfl, rfl, rfl⟩
  | counted outcome =>
    cases h
    exact ⟨rfl, rfl, rfl⟩

/-- Whether a sink takes all texts of units, keeping a relation between it, its files and the units
whose texts it has taken. -/
def Accepts (units : List ClassUnit) (taken : List ClassUnit → σ → FileSystem → Prop) : Prop :=
  ∀ offered unit sink world, taken offered sink world.files →
    (offered ++ [unit]).Subperm units →
      ∃ sink' world', Saver.saveText sink world unit = (sink', world', true)
        ∧ taken (offered ++ [unit]) sink' world'.files

/-- A sink that never refuses a text takes all. -/
theorem accepts_of_saves (havoiding : Avoiding places own)
    (hsaves : ∀ (sink : σ) (world : World) (qualifiedName entryName content : String),
      own sink world.files →
        (TextSink.save sink world qualifiedName entryName content).2.2 = .ok ())
    (units : List ClassUnit) : Accepts units fun _ => own := by
  intro offered unit sink world hown _
  obtain ⟨hown', -⟩ := havoiding.saveText hown unit
  have hanswer := hsaves sink world unit.qualifiedName unit.entryName unit.content hown
  rcases hsave : TextSink.save sink world unit.qualifiedName unit.entryName unit.content
    with ⟨sink', world', answer⟩
  rw [hsave] at hanswer
  cases hanswer
  have htext : Saver.saveText sink world unit = (sink', world', true) := by
    rw [Saver.saveText, hsave]
  rw [htext] at hown'
  exact ⟨sink', world', htext, hown'⟩

/-- The units whose texts were offered to the sink so far. -/
def offeredOf (tasks : List Task) : List ClassUnit :=
  (tasks.filter fun task => task.stage.answered?.isSome).map Task.unit

/-- What is known at a moment of the texts of a batch whose sink takes all texts. -/
structure Offered (taken : List ClassUnit → σ → FileSystem → Prop) (progress : Progress σ)
    (offered : List ClassUnit) : Prop where
  taken : taken offered progress.common.sink progress.common.world.files
  perm : offered.Perm (offeredOf progress.tasks)
  saved : ∀ task ∈ progress.tasks, task.stage.answered? ≠ some false

variable {taken : List ClassUnit → σ → FileSystem → Prop} {offered : List ClassUnit}

theorem offeredOf_append_cons (front back : List Task) (unit : ClassUnit) (stage : Stage) :
    offeredOf (front ++ ⟨unit, stage⟩ :: back)
      = offeredOf front ++ (if stage.answered?.isSome then [unit] else []) ++ offeredOf back := by
  rw [offeredOf, List.filter_append, List.filter_cons]
  split <;> simp [offeredOf]

theorem offeredOf_sublist (tasks : List Task) :
    (offeredOf tasks).Sublist (tasks.map Task.unit) :=
  List.filter_sublist.map Task.unit

/-- The text of a unit that waited is offered after those before. -/
theorem perm_offeredOf_concat {front back : List Task}
    (h : offered.Perm (offeredOf (front ++ ⟨unit, .waiting⟩ :: back))) :
    (offered ++ [unit]).Perm (offeredOf (front ++ ⟨unit, .offered true⟩ :: back)) := by
  have hbefore : offered.Perm (offeredOf front ++ offeredOf back) := by
    simpa [offeredOf_append_cons, Stage.answered?] using h
  have hnow : (offered ++ [unit]).Perm (offeredOf front ++ unit :: offeredOf back) :=
    (List.perm_append_singleton unit offered).trans
      ((hbefore.cons unit).trans List.perm_middle.symm)
  simpa [offeredOf_append_cons, Stage.answered?] using hnow

/-- A text more may be offered by a step, and is taken. -/
theorem Offered.next {front back : List Task} {stage : Stage}
    (haccepts : Accepts ((front ++ ⟨unit, stage⟩ :: back).map Task.unit) taken)
    (h : Offered taken ⟨common, front ++ ⟨unit, stage⟩ :: back⟩ offered) :
    ∃ offered', Offered taken ⟨(stage.next path unit common).1,
      front ++ ⟨unit, (stage.next path unit common).2⟩ :: back⟩ offered' := by
  obtain ⟨htaken, hperm, hsaved⟩ := h
  have hothers {stage' : Stage} (hthis : stage'.answered? ≠ some false) :
      ∀ task ∈ front ++ ⟨unit, stage'⟩ :: back, task.stage.answered? ≠ some false := by
    intro task htask
    rcases List.mem_cons.1 (List.perm_middle.mem_iff.1 htask) with rfl | hother
    · exact hthis
    · exact hsaved task (List.perm_middle.mem_iff.2 (List.mem_cons_of_mem _ hother))
  cases hanswered : stage.answered? with
  | some textSaved =>
    -- the sink is not asked, and was asked before
    obtain ⟨hsink, hfiles, hanswered'⟩ := passes_next path unit common hanswered
    refine ⟨offered, ?_, ?_, hothers ?_⟩
    · dsimp only at hsink hfiles ⊢
      rw [hsink, hfiles]
      exact htaken
    · rw [offeredOf_append_cons] at hperm ⊢
      rw [hanswered']
      rw [hanswered] at hperm
      exact hperm
    · rw [hanswered', ← hanswered]
      exact hsaved ⟨unit, stage⟩ (List.mem_append_right _ (List.mem_cons_self ..))
  | none =>
    have hwaiting : stage = .waiting := by cases stage <;> first | rfl | contradiction
    subst hwaiting
    have hperm' := perm_offeredOf_concat hperm
    have hsubperm : (offered ++ [unit]).Subperm
        ((front ++ ⟨unit, .waiting⟩ :: back).map Task.unit) := by
      have hsublist := offeredOf_sublist (front ++ ⟨unit, .offered true⟩ :: back)
      rw [List.map_append, List.map_cons] at hsublist ⊢
      exact ⟨_, hperm'.symm, hsublist⟩
    obtain ⟨sink, world, hsave, htaken'⟩ := haccepts _ _ _ _ htaken hsubperm
    have hyes : some true ≠ some false := by decide
    rw [Stage.next, hsave]
    exact ⟨offered ++ [unit], htaken', hperm', hothers hyes⟩

omit [TextSink σ] in
theorem offered_start {sink : σ} {world : World} (htaken : taken [] sink world.files)
    (path : String) (units : List ClassUnit) :
    Offered taken (.start path sink world units) [] := by
  have hwaiting {task : Task} (htask : task ∈ (Progress.start path sink world units).tasks) :
      task.stage.answered? = none := by
    obtain ⟨unit, -, rfl⟩ := List.mem_map.1 htask
    rfl
  have hnone : offeredOf (Progress.start path sink world units).tasks = [] := by
    rw [offeredOf, List.map_eq_nil_iff, List.filter_eq_nil_iff]
    intro task htask
    rw [hwaiting htask]
    exact Bool.false_ne_true
  refine ⟨htaken, hnone ▸ .refl _, fun task htask => ?_⟩
  rw [hwaiting htask]
  nofun

/-- Whatever the order, no text is refused by a sink that takes all. -/
theorem exists_offered_worked {units : List ClassUnit} {sink : σ} {world : World}
    (haccepts : Accepts units taken) (htaken : taken [] sink world.files) (order : List Nat) :
    ∃ offered, Offered taken (worked path units sink world order) offered := by
  refine worked_invariant (P := fun progress => ∃ offered, Offered taken progress offered)
    (fun common front unit stage back hunits h => ?_) ⟨[], offered_start htaken path units⟩ order
  obtain ⟨offered, h⟩ := h
  exact h.next (hunits ▸ haccepts)

omit [TextSink σ] in
/-- In the end all texts have been taken. -/
theorem Offered.perm_of_isOver {progress : Progress σ} (h : Offered taken progress offered)
    (hover : progress.IsOver) : offered.Perm (progress.tasks.map Task.unit) := by
  have hall : progress.tasks.filter (fun task => task.stage.answered?.isSome) = progress.tasks := by
    refine List.filter_eq_self.2 fun task htask => ?_
    obtain ⟨outcome, hstage⟩ := hover task htask
    rw [hstage]
    rfl
  have hperm := h.perm
  rw [offeredOf, hall] at hperm
  exact hperm

omit [TextSink σ] in
/-- If all texts were taken, no failure was counted. -/
theorem Stands.textFailures {progress : Progress σ} (h : Stands fs path own progress staged)
    (hsaved : ∀ task ∈ progress.tasks, task.stage.answered? ≠ some false) :
    progress.common.summary.textFailures = 0 := by
  have hnone : (countedOf progress.tasks).countP (fun outcome => !outcome.textSaved) = 0 := by
    refine List.countP_eq_zero.2 fun outcome houtcome => ?_
    obtain ⟨task, htask, hcounted⟩ := List.mem_filterMap.1 houtcome
    have hanswered := hsaved task htask
    cases hstage : task.stage with
    | counted outcome' =>
      rw [hstage] at hcounted hanswered
      cases hcounted
      intro hrefused
      rw [Bool.not_eq_true'] at hrefused
      exact hanswered (congrArg some hrefused)
    | _ =>
      rw [hstage] at hcounted
      contradiction
  rw [h.summary, tallied, hnone]
  rfl

/-! ## A zip archive of the texts -/

/-- The entry of the text of a unit. -/
def unitItem (unit : ClassUnit) : Zip.Item := textItem unit.entryName unit.content

/-- Whether a file is the zip archive of the texts of units, in some order. -/
def ArchivesTexts (fs : FileSystem) (file : FileId) (units : List ClassUnit) : Prop :=
  ∃ items, (fs.data file).bytes = (Zip.encode items []).toArray ∧ items.Perm (units.map unitItem)

variable {file : FileId} {world world' : World}

theorem avoids_of_refilled (h : Refilled world.files world'.files file)
    (hhandles : world'.handles = world.handles)
    (hplaces : ∀ l ∈ places, world.files.node? l ≠ some (.file file)) :
    Avoids places world world' where
  files hfiles := by
    refine ⟨h.wellFormed hfiles, h.current, fun l hl => ⟨h.node?_eq l, fun j hj => ?_⟩⟩
    refine h.others j ?_
    rintro rfl
    exact hplaces l hl hj
  handles id handle hid := by
    rw [hhandles]
    exact hid

/-- The files of a zip sink that leaves places alone. -/
def zipOwn (places : List Location) (file : FileId) (sink : ZipSink) (fs : FileSystem) : Prop :=
  (∃ items, sink.Records file items fs) ∧ ∀ l ∈ places, fs.node? l ≠ some (.file file)

theorem avoiding_zipSink (places : List Location) (file : FileId) :
    Avoiding places (zipOwn places file) where
  save sink world qualifiedName entryName content hown := by
    obtain ⟨⟨items, hrecords⟩, hplaces⟩ := hown
    by_cases hold : ∃ item ∈ items, item.name = entryName
    · obtain ⟨world', hsave, hfiles, hhandles⟩ := hrecords.save_again qualifiedName hold content
      rw [hsave]
      refine ⟨⟨⟨items, hfiles ▸ hrecords⟩, hfiles ▸ hplaces⟩, ?_⟩
      exact avoids_of_refilled (hfiles ▸ .refl ..) hhandles hplaces
    · have hnew : ∀ item ∈ items, item.name ≠ entryName := fun item hitem hname =>
        hold ⟨item, hitem, hname⟩
      obtain ⟨sink', world', hsave, hrecords', hrefilled, hhandles⟩ :=
        hrecords.save qualifiedName hnew content
      rw [hsave]
      refine ⟨⟨⟨_, hrecords'⟩, fun l hl => ?_⟩, avoids_of_refilled hrefilled hhandles hplaces⟩
      rw [hrefilled.node?_eq]
      exact hplaces l hl
  close sink world hown := by
    obtain ⟨⟨items, hrecords⟩, hplaces⟩ := hown
    obtain ⟨sink', world', hclose, -, hrefilled, hhandles⟩ := hrecords.close
    rw [hclose]
    exact avoids_of_refilled hrefilled hhandles hplaces

/-- A zip archive takes all texts of different names. -/
theorem accepts_zipSink {units : List ClassUnit} (hnodup : (units.map ClassUnit.entryName).Nodup)
    (file : FileId) :
    Accepts units fun offered (sink : ZipSink) fs =>
      sink.Records file (offered.map unitItem) fs := by
  rintro offered unit sink world hrecords ⟨these, hperm, hsublist⟩
  -- the name of the text is none of those before
  have hnames := (hperm.map ClassUnit.entryName).nodup_iff.1
    ((hsublist.map ClassUnit.entryName).nodup hnodup)
  rw [List.map_append, List.nodup_append] at hnames
  have hnew : ∀ item ∈ offered.map unitItem, item.name ≠ unit.entryName := by
    intro item hitem
    obtain ⟨other, hother, rfl⟩ := List.mem_map.1 hitem
    exact hnames.2.2 _ (List.mem_map_of_mem hother) _ (List.mem_singleton_self _)
  obtain ⟨sink', world', hsave, hrecords', -, -⟩ :=
    hrecords.save unit.qualifiedName hnew unit.content
  refine ⟨sink', world', ?_, ?_⟩
  · rw [Saver.saveText, hsave]
  · dsimp only
    rw [List.map_append]
    exact hrecords'

/-- When the batch has ended, the zip archive is that of its items. -/
theorem Settled.bytes_zipSink {common : Common ZipSink}
    (h : Settled fs path (zipOwn (archivePlaces fs path) file) staged common)
    {items : List Zip.Item} (hrecords : common.sink.Records file items common.world.files)
    (hplaces : ∀ l ∈ archivePlaces fs path, fs.node? l ≠ some (.file file)) :
    ((common.conclude path).2.1.files.data file).bytes = (Zip.encode items []).toArray := by
  have hclosed := (avoiding_zipSink _ file).close common.sink common.world h.own
  obtain ⟨sink, world, hclose, hholds, -, -⟩ := hrecords.close
  rw [hclose] at hclosed
  have hfiles := h.files.trans (hclosed.files h.files.wellFormed)
  -- the file stands at no place of the archive, so closing the archive leaves it alone
  have hkept :=
    ((h.holding.mono hclosed.handles).frame_closeAll hfiles).2 file hholds.present hplaces
  rw [Common.files_conclude, hclose, hkept, ← hholds.bytes, Array.toArray_toList]

/-! ## Any order -/

section Orders

variable {units : List ClassUnit}

/-- A sink that takes all texts has refused none in the end, whatever the order. -/
theorem exists_taken_of_isOver {sink : σ} {world : World} {order : List Nat}
    (haccepts : Accepts units taken) (htaken : taken [] sink world.files)
    (hover : (worked path units sink world order).IsOver) :
    (∀ task ∈ (worked path units sink world order).tasks, task.stage.answered? ≠ some false)
      ∧ ∃ offered, offered.Perm units ∧ taken offered
        (worked path units sink world order).common.sink
        (worked path units sink world order).common.world.files := by
  obtain ⟨offered, hoffered⟩ := exists_offered_worked haccepts htaken order
  have hperm := hoffered.perm_of_isOver hover
  rw [map_unit_worked] at hperm
  exact ⟨hoffered.saved, offered, hperm, hoffered.taken⟩

theorem textFailures_of_isOver {sink : σ} {world : World} {order : List Nat}
    (hfiles : WellFormed world.files) (hapart : Apart units)
    (havoiding : Avoiding (archivePlaces world.files path) own) (hown : own sink world.files)
    (haccepts : Accepts units taken) (htaken : taken [] sink world.files)
    (hover : (worked path units sink world order).IsOver) :
    (worked path units sink world order).common.summary.textFailures = 0 := by
  obtain ⟨staged, hstands⟩ := exists_stands_worked hfiles hapart havoiding hown order
  obtain ⟨hsaved, -⟩ := exists_taken_of_isOver haccepts htaken hover
  exact hstands.textFailures hsaved

/-- A zip archive that takes texts of different names has all in the end, whatever the order. -/
theorem archivesTexts_of_isOver {sink : ZipSink} {world : World} {order : List Nat}
    (hfiles : WellFormed world.files) (hapart : Apart units)
    (hnodup : (units.map ClassUnit.entryName).Nodup) (hrecords : sink.Records file [] world.files)
    (hplaces : ∀ l ∈ archivePlaces world.files path, world.files.node? l ≠ some (.file file))
    (hover : (worked path units sink world order).IsOver) :
    ArchivesTexts ((worked path units sink world order).common.conclude path).2.1.files file
      units := by
  obtain ⟨staged, hstands⟩ := exists_stands_worked hfiles hapart (avoiding_zipSink _ file)
    ⟨⟨[], hrecords⟩, hplaces⟩ order
  obtain ⟨-, offered, hperm, htaken⟩ :=
    exists_taken_of_isOver (accepts_zipSink hnodup file) hrecords hover
  exact ⟨offered.map unitItem, hstands.settled.bytes_zipSink htaken hplaces, hperm.map unitItem⟩

/-- A batch ends the same whatever the order in which workers take its units further, if the sink
leaves the archive alone and no two units with a mapping are for the same class. If the sink never
refuses a text, as many are refused as in turn; and a zip archive, which does not if the texts have
different names, has them all in the end. -/
theorem worked_endsAsInTurn {world : World} (hfiles : WellFormed world.files)
    (hapart : Apart units) (path : String) :
    (∀ (σ : Type) [TextSink σ] (own : σ → FileSystem → Prop) (sink : σ) (order : List Nat),
      Avoiding (archivePlaces world.files path) own → own sink world.files →
        (worked path units sink world order).IsOver →
          EndsAsInTurn path units sink world (worked path units sink world order).common
            ∧ ((∀ (sink : σ) (world : World) (qualifiedName entryName content : String),
                own sink world.files →
                  (TextSink.save sink world qualifiedName entryName content).2.2 = .ok ()) →
              (worked path units sink world order).common.summary.textFailures
                = (savedInTurn path units sink world).summary.textFailures))
      ∧ ∀ (sink : ZipSink) (file : FileId) (order : List Nat),
        sink.Records file [] world.files →
        (∀ l ∈ archivePlaces world.files path, world.files.node? l ≠ some (.file file)) →
        (units.map ClassUnit.entryName).Nodup → (worked path units sink world order).IsOver →
          EndsAsInTurn path units sink world (worked path units sink world order).common
            ∧ (worked path units sink world order).common.summary.textFailures
              = (savedInTurn path units sink world).summary.textFailures
            ∧ ArchivesTexts
              ((worked path units sink world order).common.conclude path).2.1.files file units
            ∧ ArchivesTexts (run path units sink world).2.1.files file units := by
  refine ⟨fun σ _ own sink order havoiding hown hover => ⟨?_, fun hsaves => ?_⟩,
    fun sink file order hrecords hplaces hnodup hover => ?_⟩
  · exact endsAsInTurn_of_isOver hfiles hapart havoiding hown hover
  · -- no text fails in this order, and none in the order of the units
    have haccepts : Accepts units fun _ => own := accepts_of_saves havoiding hsaves units
    obtain ⟨order', hcommon', hover'⟩ := exists_order_savedInTurn path units sink world
    rw [textFailures_of_isOver hfiles hapart havoiding hown haccepts hown hover, ← hcommon',
      textFailures_of_isOver hfiles hapart havoiding hown haccepts hown hover']
  · have havoiding := avoiding_zipSink (archivePlaces world.files path) file
    have hown : zipOwn (archivePlaces world.files path) file sink world.files :=
      ⟨⟨[], hrecords⟩, hplaces⟩
    -- names that differ are taken, whichever comes first
    have haccepts := accepts_zipSink hnodup file
    obtain ⟨order', hcommon', hover'⟩ := exists_order_savedInTurn path units sink world
    refine ⟨endsAsInTurn_of_isOver hfiles hapart havoiding hown hover, ?_,
      archivesTexts_of_isOver hfiles hapart hnodup hrecords hplaces hover, ?_⟩
    · rw [textFailures_of_isOver hfiles hapart havoiding hown haccepts hrecords hover, ← hcommon',
        textFailures_of_isOver hfiles hapart havoiding hown haccepts hrecords hover']
    · rw [run_eq_conclude, ← hcommon']
      exact archivesTexts_of_isOver hfiles hapart hnodup hrecords hplaces hover'

end Orders

/-! ## Three units, worked on by turns -/

/-- The world with an archive of one class, and an empty file beside it. -/
def outWorld : World :=
  { classWorld with files := classWorld.files.grow ["out.zip"] ⟨#[], newFileMode, .disk⟩ }

/-- A unit for the class, one for a class that is missing, and one without a mapping. -/
def outUnits : List ClassUnit :=
  [⟨"f", "f.java", "class f", some [10, 20, 12, 22]⟩, ⟨"g", "g.java", "class g", some [1, 2]⟩,
    ⟨"h", "h.java", "class h", none⟩]

/-- An order in which all units are taken a step further by turns. -/
def byTurns : List Nat := (List.replicate 7 [0, 1, 2]).flatten

/-- The sink into the empty file. -/
def outSink : ZipSink := ⟨"out.zip", some (.start 1)⟩

theorem outSink_records : outSink.Records 1 [] outWorld.files := by
  have hfiles : WellFormed classWorld.files := isolated_classWorld.archived.wellFormed
  have hvacant : classWorld.files.resolve .create "out.zip" = .ok (.vacant ["out.zip"] false) := by
    decide +kernel
  have hcreate : classWorld.files.createFile "out.zip" = .ok (1, outWorld.files) :=
    createFile_of_vacant hvacant
  exact ZipSink.records_of_createFile hfiles hcreate rfl

set_option maxRecDepth 2000 in
/-- A batch by turns into a zip archive is over, and has ended as in turn: one class is remapped,
and all texts are in the archive. -/
theorem worked_endsAsInTurn_outWorld :
    (worked "lib.jar" outUnits outSink outWorld byTurns).IsOver
      ∧ EndsAsInTurn "lib.jar" outUnits outSink outWorld
        (worked "lib.jar" outUnits outSink outWorld byTurns).common
      ∧ ArchivesTexts
        ((worked "lib.jar" outUnits outSink outWorld byTurns).common.conclude "lib.jar").2.1.files 1
        outUnits
      ∧ (worked "lib.jar" outUnits outSink outWorld byTurns).common.summary
        = ⟨"lib.jar", 3, 1, 1, 1, 0⟩ := by
  have hfiles : WellFormed outWorld.files :=
    wellFormed_grow isolated_classWorld.archived.wellFormed _ _
  have hapart : Apart outUnits := by
    unfold Apart
    decide +kernel
  have hplaces : ∀ l ∈ archivePlaces outWorld.files "lib.jar",
      outWorld.files.node? l ≠ some (.file 1) := by
    decide +kernel
  have hnodup : (outUnits.map ClassUnit.entryName).Nodup := by decide +kernel
  have hover : (worked "lib.jar" outUnits outSink outWorld byTurns).IsOver := by
    decide +kernel
  have hsummary : (worked "lib.jar" outUnits outSink outWorld byTurns).common.summary
      = ⟨"lib.jar", 3, 1, 1, 1, 0⟩ := by
    decide +kernel
  obtain ⟨hends, -⟩ := (worked_endsAsInTurn hfiles hapart "lib.jar").1 ZipSink
    (zipOwn (archivePlaces outWorld.files "lib.jar") 1) outSink byTurns (avoiding_zipSink _ 1)
    ⟨⟨[], outSink_records⟩, hplaces⟩ hover
  obtain ⟨-, -, harchives, -⟩ := (worked_endsAsInTurn hfiles hapart "lib.jar").2 outSink 1 byTurns
    outSink_records hplaces hnodup hover
  exact ⟨hover, hends, harchives, hsummary⟩

end Reline.Batch
