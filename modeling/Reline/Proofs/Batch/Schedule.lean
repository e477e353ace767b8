/-
  Reline.Proofs.Batch.Schedule

  The units of a batch, worked on in any order.

  Workers share a sink, a store, a world and a summary. Each takes a unit through
  its stages: the text goes to the sink, the store is asked for the handle of the
  archive, the class is read through it, a handle is asked for again, the remapped
  class is written through that, and what became of the unit is counted. A step
  locks what it acts on, so an order in which steps of units are done is all that
  a number of workers, however large, can differ in. A batch that works on one
  unit after the other is one such order.

  Main statement: `exists_order_savedInTurn`.
-/

import Mathlib.Logic.Relation
import Reline.Batch

namespace Reline.Batch

open Archive

/-! ## Stages -/

/-- How far the work on a unit has got, and what it has to remember. -/
inductive Stage where
  /-- It was not begun. -/
  | waiting
  /-- The sink has answered to the text. -/
  | offered (textSaved : Bool)
  /-- The class is to be read through a handle. -/
  | reading (textSaved : Bool) (mapping : LineMapping) (id : HandleId)
  /-- A handle is needed to write the remapped class. -/
  | remapped (textSaved : Bool) (bytes : Bytes) (report : RemapReport)
  /-- The remapped class is to be written through a handle. -/
  | writing (textSaved : Bool) (bytes : Bytes) (report : RemapReport) (id : HandleId)
  /-- It is over, for better or worse. -/
  | done (outcome : SaveOutcome)
  /-- What became of it was counted. -/
  | counted (outcome : SaveOutcome)

/-- What the workers share. -/
structure Common (σ : Type) where
  sink : σ
  store : Store
  world : World
  summary : BatchSummary

variable {σ : Type} [TextSink σ]

omit [TextSink σ] in
/-- The class of a unit could not be remapped. -/
def Common.fail (common : Common σ) (path : String) (unit : ClassUnit) (textSaved : Bool)
    (e : Saver.PatchError) : Common σ × Stage :=
  ({ common with
      world := common.world.record .warn .saver
        s!"Line mapping failed on {unit.classEntry} in {path}: {e.failure.line}" },
    .done ⟨textSaved, .failed⟩)

omit [TextSink σ] in
/-- The class of a unit was read, or could not be, and its lines are remapped. -/
def Common.ofRead (common : Common σ) (path : String) (unit : ClassUnit) (textSaved : Bool)
    (m : LineMapping) : Except Archive.Error Bytes → Common σ × Stage
  | .error e => common.fail path unit textSaved (.archive e)
  | .ok bytes =>
    match remapClass m bytes with
    | .error e => common.fail path unit textSaved (.classFile e)
    | .ok (patched, report) => (common, .remapped textSaved patched report)

omit [TextSink σ] in
/-- The remapped class of a unit was written, or could not be. -/
def Common.ofWrite (common : Common σ) (path : String) (unit : ClassUnit) (textSaved : Bool)
    (report : RemapReport) : Except Archive.Error Unit → Common σ × Stage
  | .error e => common.fail path unit textSaved (.archive e)
  | .ok () =>
    ({ common with
        world := common.world.record .debug .saver (Saver.remappedText unit.classEntry report) },
      .done ⟨textSaved, .persisted⟩)

/-- The next step of the work on a unit. -/
def Stage.next (path : String) (unit : ClassUnit) (common : Common σ) : Stage → Common σ × Stage
  | waiting =>
    let (sink, world, textSaved) := Saver.saveText common.sink common.world unit
    ({ common with sink, world }, offered textSaved)
  | offered textSaved =>
    match unit.mapping with
    | none | some [] => (common, done ⟨textSaved, .skipped⟩)
    | some flat =>
      match LineMapping.ofFlat flat with
      | .error e => common.fail path unit textSaved (.mapping e)
      | .ok m =>
        match common.store.handle common.world path with
        | (store, world, .error e) =>
          Common.fail { common with store, world } path unit textSaved (.archive e)
        | (store, world, .ok id) => ({ common with store, world }, reading textSaved m id)
  | reading textSaved m id =>
    common.ofRead path unit textSaved m (common.world.readEntry id unit.classEntry)
  | remapped textSaved bytes report =>
    match common.store.handle common.world path with
    | (store, world, .error e) =>
      Common.fail { common with store, world } path unit textSaved (.archive e)
    | (store, world, .ok id) =>
      ({ common with store, world }, writing textSaved bytes report id)
  | writing textSaved bytes report id =>
    let (world, result) := common.world.writeEntry id unit.classEntry bytes
    Common.ofWrite { common with world } path unit textSaved report result
  | done outcome =>
    ({ common with summary := count common.summary outcome }, counted outcome)
  | counted outcome => (common, counted outcome)

/-! ## Orders -/

/-- A unit and the stage of the work on it. -/
structure Task where
  unit : ClassUnit
  stage : Stage

/-- A batch at a moment. -/
structure Progress (σ : Type) where
  common : Common σ
  tasks : List Task

/-- Does the next step of the work on the unit with a number. -/
def Progress.advance (path : String) (progress : Progress σ) (i : Nat) : Progress σ :=
  match progress.tasks[i]? with
  | none => progress
  | some task =>
    let (common, stage) := task.stage.next path task.unit progress.common
    ⟨common, progress.tasks.set i { task with stage }⟩

/-- Does steps in an order, which says of each step which unit it takes further. -/
def Progress.after (path : String) (progress : Progress σ) (order : List Nat) : Progress σ :=
  order.foldl (Progress.advance path) progress

/-- A batch that was not begun. -/
def Progress.start (path : String) (sink : σ) (world : World) (units : List ClassUnit) :
    Progress σ :=
  ⟨⟨sink, .empty, world, Batch.start path⟩, units.map (⟨·, .waiting⟩)⟩

/-- A batch after steps in an order. -/
def worked (path : String) (units : List ClassUnit) (sink : σ) (world : World)
    (order : List Nat) : Progress σ :=
  Progress.after path (.start path sink world units) order

/-- Whether the work on all units is done. -/
def Progress.IsOver (progress : Progress σ) : Prop :=
  ∀ task ∈ progress.tasks, ∃ outcome, task.stage = .counted outcome

/-- Ends a batch: the sink is closed, then the store, and the first failure is reported. -/
def Common.conclude (path : String) (common : Common σ) : σ × World × Except Error BatchSummary :=
  let (sink, world, sinkClosed) := TextSink.close common.sink common.world
  let (_, world, failures) := common.store.closeAll world
  if !failures.isEmpty then (sink, world, .error (.persist path failures))
  else
    match sinkClosed with
    | .error e => (sink, world, .error (.sink e))
    | .ok () =>
      (sink, world.record .info .batch (summaryText common.summary), .ok common.summary)

variable {path : String} {unit : ClassUnit}

theorem Progress.advance_append (common : Common σ) (front back : List Task) (stage : Stage) :
    Progress.advance path ⟨common, front ++ ⟨unit, stage⟩ :: back⟩ front.length
      = ⟨(stage.next path unit common).1,
          front ++ ⟨unit, (stage.next path unit common).2⟩ :: back⟩ := by
  rw [advance]
  dsimp only
  rw [List.getElem?_append_right (Nat.le_refl _), Nat.sub_self, List.getElem?_cons_zero]
  dsimp only
  rw [List.set_append_right _ _ (Nat.le_refl _), Nat.sub_self, List.set_cons_zero]

theorem exists_append_of_getElem? {tasks : List Task} {i : Nat} {task : Task}
    (h : tasks[i]? = some task) :
    ∃ front back, tasks = front ++ task :: back ∧ front.length = i := by
  obtain ⟨hi, rfl⟩ := List.getElem?_eq_some_iff.1 h
  refine ⟨tasks.take i, tasks.drop (i + 1), ?_, List.length_take_of_le (Nat.le_of_lt hi)⟩
  rw [← List.drop_eq_getElem_cons hi, List.take_append_drop]

/-- What a step of any unit keeps holds in whatever order steps are taken. -/
theorem Progress.after_invariant {P : Progress σ → Prop} {progress : Progress σ}
    (hnext : ∀ (common : Common σ) (front : List Task) (unit : ClassUnit) (stage : Stage)
      (back : List Task), P ⟨common, front ++ ⟨unit, stage⟩ :: back⟩ →
        P ⟨(stage.next path unit common).1,
          front ++ ⟨unit, (stage.next path unit common).2⟩ :: back⟩)
    (h : P progress) (order : List Nat) : P (progress.after path order) := by
  induction order generalizing progress with
  | nil => exact h
  | cons i order ih =>
    refine ih ?_
    cases htask : progress.tasks[i]? with
    | none =>
      -- no unit has the number
      rw [advance, htask]
      exact h
    | some task =>
      obtain ⟨common, tasks⟩ := progress
      obtain ⟨front, back, rfl, rfl⟩ := exists_append_of_getElem? htask
      rw [advance_append]
      exact hnext _ _ _ _ _ h

/-- The units of a batch stay as they are. -/
theorem Progress.map_unit_after (path : String) (progress : Progress σ) (order : List Nat) :
    (progress.after path order).tasks.map Task.unit = progress.tasks.map Task.unit := by
  refine after_invariant (P := fun p => p.tasks.map Task.unit = progress.tasks.map Task.unit)
    (fun common front unit stage back h => ?_) rfl order
  rw [← h, List.map_append, List.map_append, List.map_cons, List.map_cons]

omit [TextSink σ] in
theorem Progress.map_unit_start (path : String) (sink : σ) (world : World)
    (units : List ClassUnit) :
    (Progress.start path sink world units).tasks.map Task.unit = units := by
  rw [start, List.map_map]
  exact List.map_id _

theorem map_unit_worked (path : String) (units : List ClassUnit) (sink : σ) (world : World)
    (order : List Nat) : (worked path units sink world order).tasks.map Task.unit = units :=
  (Progress.map_unit_after ..).trans (Progress.map_unit_start ..)

/-- What holds of a batch at its start, and is kept by a step of any of its units, holds in whatever
order they are worked on. -/
theorem worked_invariant {P : Progress σ → Prop} {units : List ClassUnit} {sink : σ} {world : World}
    (hnext : ∀ (common : Common σ) (front : List Task) (unit : ClassUnit) (stage : Stage)
      (back : List Task), (front ++ ⟨unit, stage⟩ :: back).map Task.unit = units →
        P ⟨common, front ++ ⟨unit, stage⟩ :: back⟩ →
          P ⟨(stage.next path unit common).1,
            front ++ ⟨unit, (stage.next path unit common).2⟩ :: back⟩)
    (hstart : P (.start path sink world units)) (order : List Nat) :
    P (worked path units sink world order) := by
  refine (Progress.after_invariant (P := fun p => p.tasks.map Task.unit = units ∧ P p)
    (fun common front unit stage back h => ⟨?_, hnext common front unit stage back h.1 h.2⟩)
    ⟨Progress.map_unit_start .., hstart⟩ order).2
  rw [← h.1, List.map_append, List.map_append, List.map_cons, List.map_cons]

/-! ## One unit after the other -/

/-- What steps of the work on a unit lead to, with no step of another unit between them. -/
def Takes (path : String) (unit : ClassUnit) : Common σ × Stage → Common σ × Stage → Prop :=
  Relation.ReflTransGen fun before after => before.2.next path unit before.1 = after

theorem takes_next {common common' : Common σ} {stage stage' : Stage}
    (h : stage.next path unit common = (common', stage')) :
    Takes path unit (common, stage) (common', stage') :=
  .single h

/-- Steps of one unit make an order by themselves. -/
theorem Takes.exists_order {before after : Common σ × Stage} (h : Takes path unit before after)
    (front back : List Task) :
    ∃ order, Progress.after path ⟨before.1, front ++ ⟨unit, before.2⟩ :: back⟩ order
      = ⟨after.1, front ++ ⟨unit, after.2⟩ :: back⟩ := by
  induction h using Relation.ReflTransGen.head_induction_on with
  | refl => exact ⟨[], rfl⟩
  | head hnext _ ih =>
    obtain ⟨order, horder⟩ := ih
    refine ⟨front.length :: order, ?_⟩
    rw [Progress.after, List.foldl_cons, Progress.advance_append, hnext]
    exact horder

variable {common : Common σ} {store : Store} {world : World} {textSaved : Bool}

/-- Reading a class at a stretch takes two steps. -/
theorem takes_read {line : Int} {flat : List Int} {m : LineMapping}
    (hmapping : unit.mapping = some (line :: flat))
    (hflat : LineMapping.ofFlat (line :: flat) = .ok m) {answer : Except Archive.Error Bytes}
    (h : common.store.read common.world path unit.classEntry = (store, world, answer)) :
    Takes path unit (common, .offered textSaved)
      (Common.ofRead { common with store, world } path unit textSaved m answer) := by
  have hnext : (Stage.offered textSaved).next path unit common
      = match common.store.handle common.world path with
        | (store, world, .error e) =>
          Common.fail { common with store, world } path unit textSaved (.archive e)
        | (store, world, .ok id) => ({ common with store, world }, .reading textSaved m id) := by
    rw [Stage.next, hmapping]
    dsimp only
    rw [hflat]
  rw [Store.read] at h
  rcases hhandle : common.store.handle common.world path with ⟨store₁, world₁, e | id⟩
  · rw [hhandle] at h hnext
    cases h
    exact takes_next hnext
  · rw [hhandle] at h hnext
    cases h
    exact (takes_next hnext).trans (takes_next rfl)

/-- Writing a class at a stretch takes two steps. -/
theorem takes_write {bytes : Bytes} {report : RemapReport} {answer : Except Archive.Error Unit}
    (h : common.store.write common.world path unit.classEntry bytes = (store, world, answer)) :
    Takes path unit (common, .remapped textSaved bytes report)
      (Common.ofWrite { common with store, world } path unit textSaved report answer) := by
  have hnext : (Stage.remapped textSaved bytes report).next path unit common
      = match common.store.handle common.world path with
        | (store, world, .error e) =>
          Common.fail { common with store, world } path unit textSaved (.archive e)
        | (store, world, .ok id) =>
          ({ common with store, world }, .writing textSaved bytes report id) := rfl
  rw [Store.write] at h
  rcases hhandle : common.store.handle common.world path with ⟨store₁, world₁, e | id⟩
  · rw [hhandle] at h hnext
    cases h
    exact takes_next hnext
  · rw [hhandle] at h hnext
    cases h
    exact (takes_next hnext).trans (takes_next rfl)

/-- Saving the lines of a unit at a stretch. -/
theorem takes_saveLines {lines : LineOutcome}
    (h : Saver.saveLines common.store common.world path unit = (store, world, lines)) :
    Takes path unit (common, .offered textSaved)
      ({ common with store, world }, .done ⟨textSaved, lines⟩) := by
  rw [Saver.saveLines] at h
  -- a unit without a mapping is done in one step
  rcases hmapping : unit.mapping with - | (- | ⟨line, flat⟩)
  · rw [hmapping] at h
    cases h
    exact takes_next (by rw [Stage.next, hmapping])
  · rw [hmapping] at h
    cases h
    exact takes_next (by rw [Stage.next, hmapping])
  · rw [hmapping] at h
    dsimp only at h
    rw [Saver.patchLines] at h
    cases hflat : LineMapping.ofFlat (line :: flat) with
    | error e =>
      rw [hflat] at h
      cases h
      refine takes_next ?_
      rw [Stage.next, hmapping]
      dsimp only
      rw [hflat]
      rfl
    | ok m =>
      rw [hflat] at h
      dsimp only at h
      rcases hread : common.store.read common.world path unit.classEntry
        with ⟨store₁, world₁, answer⟩
      have htakes : Takes path unit (common, .offered textSaved) _ :=
        takes_read hmapping hflat hread
      rw [hread] at h
      rw [Common.ofRead.eq_def] at htakes
      rcases answer with e | bytes
      · cases h
        exact htakes
      · dsimp only at h htakes
        rcases hremap : remapClass m bytes with e | ⟨patched, report⟩
        · rw [hremap] at h htakes
          cases h
          exact htakes
        · rw [hremap] at h htakes
          dsimp only at h htakes
          rcases hwrite : store₁.write world₁ path unit.classEntry patched
            with ⟨store₂, world₂, answer⟩
          let between : Common σ := { common with store := store₁, world := world₁ }
          have hwrite' : between.store.write between.world path unit.classEntry patched
              = (store₂, world₂, answer) := hwrite
          -- the write begins where the read has left the store and the world
          have hwritten := htakes.trans (takes_write hwrite')
          rw [hwrite] at h
          cases answer <;> cases h <;> exact hwritten

/-- A unit, saved and counted at a stretch. -/
theorem takes_saveUnit {sink : σ} {outcome : SaveOutcome}
    (h : Saver.saveUnit path common.sink common.store common.world unit
      = (sink, store, world, outcome)) :
    Takes path unit (common, .waiting)
      (⟨sink, store, world, count common.summary outcome⟩, .counted outcome) := by
  rw [Saver.saveUnit] at h
  rcases htext : Saver.saveText common.sink common.world unit with ⟨sink₁, world₁, textSaved⟩
  rw [htext] at h
  dsimp only at h
  rcases hlines : Saver.saveLines common.store world₁ path unit with ⟨store₂, world₂, lines⟩
  rw [hlines] at h
  cases h
  have hoffer : Takes path unit (common, .waiting)
      ({ common with sink, world := world₁ }, .offered textSaved) := by
    refine takes_next ?_
    rw [Stage.next, htext]
  exact (hoffer.trans (takes_saveLines (by exact hlines))).trans (takes_next rfl)

/-- Saving units in turn is one of the orders in which they can be worked on. -/
theorem exists_order_saveUnits {units : List ClassUnit} {sink : σ} {summary : BatchSummary}
    (h : saveUnits path common.sink common.store common.world common.summary units
      = (sink, store, world, summary)) {front : List Task}
    (hfront : ∀ task ∈ front, ∃ outcome, task.stage = .counted outcome) :
    ∃ order, (Progress.after path ⟨common, front ++ units.map (⟨·, .waiting⟩)⟩ order).common
        = ⟨sink, store, world, summary⟩
      ∧ (Progress.after path ⟨common, front ++ units.map (⟨·, .waiting⟩)⟩ order).IsOver := by
  induction units generalizing common front with
  | nil =>
    cases h
    refine ⟨[], rfl, ?_⟩
    rw [List.map_nil, List.append_nil]
    exact hfront
  | cons unit units ih =>
    rw [saveUnits] at h
    rcases hunit : Saver.saveUnit path common.sink common.store common.world unit
      with ⟨sink₁, store₁, world₁, outcome⟩
    rw [hunit] at h
    obtain ⟨first, hfirst⟩ :=
      (takes_saveUnit hunit).exists_order front (units.map (⟨·, .waiting⟩))
    have hcounted : ∀ task ∈ front ++ [⟨unit, .counted outcome⟩],
        ∃ outcome, task.stage = .counted outcome := by
      intro task htask
      rcases List.mem_append.1 htask with hold | hnew
      · exact hfront task hold
      · exact ⟨outcome, by rw [List.mem_singleton.1 hnew]⟩
    let between : Common σ := ⟨sink₁, store₁, world₁, count common.summary outcome⟩
    have hunits : saveUnits path between.sink between.store between.world between.summary units
        = (sink, store, world, summary) := h
    -- the units before are all counted, so the rest is an order by itself
    obtain ⟨rest, hrest⟩ := ih hunits hcounted
    refine ⟨first ++ rest, ?_⟩
    have happend : Progress.after path
        ⟨common, front ++ (unit :: units).map (⟨·, .waiting⟩)⟩ (first ++ rest)
          = Progress.after path ⟨⟨sink₁, store₁, world₁, count common.summary outcome⟩,
            (front ++ [⟨unit, .counted outcome⟩]) ++ units.map (⟨·, .waiting⟩)⟩ rest := by
      rw [Progress.after, List.foldl_append, List.append_assoc]
      exact congrArg (fun p => List.foldl (Progress.advance path) p rest) hfirst
    rw [happend]
    exact hrest

/-- A batch whose units were saved one after the other. -/
def savedInTurn (path : String) (units : List ClassUnit) (sink : σ) (world : World) : Common σ :=
  let (sink, store, world, summary) := saveUnits path sink .empty world (start path) units
  ⟨sink, store, world, summary⟩

theorem run_eq_conclude (path : String) (units : List ClassUnit) (sink : σ) (world : World) :
    run path units sink world = (savedInTurn path units sink world).conclude path := rfl

/-- One after the other is an order in which units can be worked on. -/
theorem exists_order_savedInTurn (path : String) (units : List ClassUnit) (sink : σ)
    (world : World) :
    ∃ order, (worked path units sink world order).common = savedInTurn path units sink world
      ∧ (worked path units sink world order).IsOver := by
  rcases hsaved : saveUnits path sink .empty world (start path) units
    with ⟨sink', store', world', summary⟩
  rw [savedInTurn, hsaved]
  let before : Common σ := ⟨sink, .empty, world, start path⟩
  have hunits : saveUnits path before.sink before.store before.world before.summary units
      = (sink', store', world', summary) := hsaved
  exact exists_order_saveUnits hunits fun _ htask => absurd htask List.not_mem_nil

end Reline.Batch
