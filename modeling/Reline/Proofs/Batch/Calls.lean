/-
  Reline.Proofs.Batch.Calls

  What a batch calls its sink for.

  Whatever the order in which workers take its units further and whatever the sink
  answers, the sink is given the text of each unit once, and is closed once after
  that. To say so, a sink is looked at through a wrapper that notes each call and
  passes it on; a batch does over the wrapper what it does over the sink.

  Main statement: `exists_conclude_traced`.
-/

import Reline.Proofs.Batch.Orders
import Reline.Proofs.Sink.Calls

namespace Reline.Batch

open Archive

variable {σ τ : Type} [TextSink σ] [TextSink τ]

/-! ## Sinks that are seen in others -/

/-- Whether sinks save texts as the sinks do that are seen in them. -/
def SavesAs (view : τ → σ) : Prop :=
  ∀ sink world qualifiedName entryName content,
    TextSink.save (view sink) world qualifiedName entryName content
      = (view (TextSink.save sink world qualifiedName entryName content).1,
          (TextSink.save sink world qualifiedName entryName content).2)

omit [TextSink σ] [TextSink τ] in
/-- What workers share, with the sink that is seen in theirs. -/
def Common.map (view : τ → σ) (common : Common τ) : Common σ :=
  ⟨view common.sink, common.store, common.world, common.summary⟩

omit [TextSink σ] [TextSink τ] in
/-- A batch at a moment, with the sink that is seen in its sink. -/
def Progress.map (view : τ → σ) (progress : Progress τ) : Progress σ :=
  ⟨progress.common.map view, progress.tasks⟩

variable {view : τ → σ}

theorem SavesAs.saveText (h : SavesAs view) (sink : τ) (world : World) (unit : ClassUnit) :
    Saver.saveText (view sink) world unit
      = (view (Saver.saveText sink world unit).1, (Saver.saveText sink world unit).2) := by
  rw [Saver.saveText, h, Saver.saveText]
  rcases TextSink.save sink world unit.qualifiedName unit.entryName unit.content
    with ⟨sink', world', e | done⟩ <;> rfl

omit [TextSink σ] [TextSink τ] in
theorem Common.map_ofRead (view : τ → σ) (common : Common τ) (path : String) (unit : ClassUnit)
    (textSaved : Bool) (m : LineMapping) (answer : Except Archive.Error Bytes) :
    (common.map view).ofRead path unit textSaved m answer
      = ((common.ofRead path unit textSaved m answer).1.map view,
          (common.ofRead path unit textSaved m answer).2) := by
  cases answer with
  | error e => rfl
  | ok bytes =>
    rw [Common.ofRead, Common.ofRead]
    cases remapClass m bytes with
    | error e => rfl
    | ok pair => rfl

/-- A step of the work on a unit over the sink that is seen is the same step. -/
theorem SavesAs.next (h : SavesAs view) (path : String) (unit : ClassUnit) (common : Common τ)
    (stage : Stage) :
    stage.next path unit (common.map view)
      = ((stage.next path unit common).1.map view, (stage.next path unit common).2) := by
  cases stage with
  | waiting =>
    rw [Stage.next, Common.map, h.saveText]
    rfl
  | offered textSaved =>
    rw [Stage.next, Stage.next]
    rcases unit.mapping with - | (- | ⟨line, flat⟩)
    · rfl
    · rfl
    · dsimp only
      cases LineMapping.ofFlat (line :: flat) with
      | error e => rfl
      | ok m =>
        dsimp only [Common.map]
        rcases common.store.handle common.world path with ⟨store, world, e | id⟩ <;> rfl
  | reading textSaved m id => exact Common.map_ofRead ..
  | remapped textSaved bytes report =>
    rw [Stage.next, Stage.next]
    dsimp only [Common.map]
    rcases common.store.handle common.world path with ⟨store, world, e | id⟩ <;> rfl
  | writing textSaved bytes report id =>
    rw [Stage.next, Stage.next]
    dsimp only [Common.map]
    rcases common.world.writeEntry id unit.classEntry bytes with ⟨world, e | done⟩ <;> rfl
  | done outcome => rfl
  | counted outcome => rfl

theorem SavesAs.advance (h : SavesAs view) (path : String) (progress : Progress τ) (i : Nat) :
    (progress.map view).advance path i = (progress.advance path i).map view := by
  rw [Progress.advance, Progress.advance, Progress.map]
  dsimp only
  cases progress.tasks[i]? with
  | none => rfl
  | some task =>
    dsimp only
    rw [h.next]
    rfl

/-- A batch over the sink that is seen goes as the batch over the sink. -/
theorem SavesAs.worked (h : SavesAs view) (path : String) (units : List ClassUnit) (sink : τ)
    (world : World) (order : List Nat) :
    worked path units (view sink) world order = (worked path units sink world order).map view := by
  have hafter (progress : Progress τ) :
      Progress.after path (progress.map view) order = (progress.after path order).map view := by
    induction order generalizing progress with
    | nil => rfl
    | cons i order ih =>
      rw [Progress.after, List.foldl_cons, h.advance]
      exact ih _
  exact hafter (.start path sink world units)

theorem SavesAs.saveUnits (h : SavesAs view) (path : String) (units : List ClassUnit) (sink : τ)
    (store : Store) (world : World) (summary : BatchSummary) :
    saveUnits path (view sink) store world summary units
      = (view (saveUnits path sink store world summary units).1,
          (saveUnits path sink store world summary units).2) := by
  induction units generalizing sink store world summary with
  | nil => rfl
  | cons unit units ih =>
    have hunit : Saver.saveUnit path (view sink) store world unit
        = (view (Saver.saveUnit path sink store world unit).1,
            (Saver.saveUnit path sink store world unit).2) := by
      rw [Saver.saveUnit, h.saveText, Saver.saveUnit]
    rw [Batch.saveUnits, hunit, Batch.saveUnits]
    exact ih ..

/-! ## Noting calls -/

/-- A sink with the calls that it got, the latest last. -/
structure Traced (σ : Type) where
  sink : σ
  calls : List SinkCall

instance : TextSink (Traced σ) where
  save traced world qualifiedName entryName content :=
    let (sink, world, answer) := TextSink.save traced.sink world qualifiedName entryName content
    (⟨sink, traced.calls ++ [.save qualifiedName entryName content]⟩, world, answer)
  close traced world :=
    let (sink, world, answer) := TextSink.close traced.sink world
    (⟨sink, traced.calls ++ [.close]⟩, world, answer)

theorem savesAs_traced : SavesAs (Traced.sink : Traced σ → σ) := fun _ _ _ _ _ => rfl

/-- The call with which the text of a unit is given. -/
def saving (unit : ClassUnit) : SinkCall :=
  .save unit.qualifiedName unit.entryName unit.content

theorem calls_saveText (traced : Traced σ) (world : World) (unit : ClassUnit) :
    (Saver.saveText traced world unit).1.calls = traced.calls ++ [saving unit] := by
  rw [Saver.saveText, TextSink.save, instTextSinkTraced]
  dsimp only
  rcases TextSink.save traced.sink world unit.qualifiedName unit.entryName unit.content
    with ⟨sink, world', e | done⟩ <;> rfl

/-- Whether the calls so far are those for the texts of the units that were offered. -/
def Progress.Notes (progress : Progress (Traced σ)) : Prop :=
  progress.common.sink.calls.Perm ((offeredOf progress.tasks).map saving)

/-- The text of a unit is given when the work on it begins, and not again. -/
theorem Progress.Notes.next {common : Common (Traced σ)} {front back : List Task}
    {unit : ClassUnit} {stage : Stage}
    (h : Progress.Notes ⟨common, front ++ ⟨unit, stage⟩ :: back⟩) (path : String) :
    Progress.Notes ⟨(stage.next path unit common).1,
      front ++ ⟨unit, (stage.next path unit common).2⟩ :: back⟩ := by
  rw [Notes, offeredOf_append_cons] at h ⊢
  dsimp only at h ⊢
  cases hanswered : stage.answered? with
  | some textSaved =>
    obtain ⟨hsink, -, hanswered'⟩ := passes_next path unit common hanswered
    rw [hanswered] at h
    rw [hsink, hanswered']
    exact h
  | none =>
    cases stage with
    | waiting =>
      have hcalls := calls_saveText common.sink common.world unit
      rw [Stage.next]
      dsimp only at hcalls ⊢
      rw [hcalls]
      have hbefore : common.sink.calls.Perm ((offeredOf front ++ offeredOf back).map saving) := by
        simpa [Stage.answered?] using h
      have hnow := (List.perm_append_singleton (saving unit) common.sink.calls).trans
        (hbefore.cons (saving unit))
      simpa [Stage.answered?] using hnow.trans (List.perm_middle.map saving).symm
    | _ => cases hanswered

theorem notes_worked (path : String) (units : List ClassUnit) (sink : σ) (world : World)
    (order : List Nat) : (worked path units (⟨sink, []⟩ : Traced σ) world order).Notes := by
  have hstart : (Progress.start path (⟨sink, []⟩ : Traced σ) world units).Notes := by
    have hnone :
        offeredOf (Progress.start path (⟨sink, []⟩ : Traced σ) world units).tasks = [] := by
      rw [offeredOf, List.map_eq_nil_iff, List.filter_eq_nil_iff]
      intro task htask
      obtain ⟨unit, -, rfl⟩ := List.mem_map.1 htask
      exact Bool.false_ne_true
    rw [Progress.Notes, hnone]
    exact .nil
  exact worked_invariant (fun _ _ _ _ _ _ h => h.next path) hstart order

omit [TextSink σ] in
/-- When all is done, all texts were offered. -/
theorem offeredOf_of_isOver {progress : Progress σ} (hover : progress.IsOver) :
    offeredOf progress.tasks = progress.tasks.map Task.unit := by
  rw [offeredOf, List.filter_eq_self.2]
  intro task htask
  obtain ⟨outcome, hstage⟩ := hover task htask
  rw [hstage]
  rfl

/-- Ending a batch closes its sink. -/
theorem conclude_traced (path : String) (common : Common (Traced σ)) :
    common.conclude path
      = (⟨((common.map Traced.sink).conclude path).1, common.sink.calls ++ [.close]⟩,
          ((common.map Traced.sink).conclude path).2) := by
  rw [Common.conclude, Common.conclude, Common.map, TextSink.close, instTextSinkTraced]
  dsimp only
  rcases TextSink.close common.sink.sink common.world with ⟨sink, world, answer⟩
  dsimp only
  rcases common.store.closeAll world with ⟨store, world', failures⟩
  dsimp only
  split
  · rfl
  · cases answer <;> rfl

/-- Whatever the order, a batch whose calls are noted ends as if they were not, and its sink was
given the text of each unit once and was closed once, after all of them. -/
theorem exists_conclude_traced {path : String} {units : List ClassUnit} {sink : σ} {world : World}
    {order : List Nat} (hover : (worked path units sink world order).IsOver) :
    ∃ saves, saves.Perm (units.map saving)
      ∧ (worked path units (⟨sink, []⟩ : Traced σ) world order).common.conclude path
        = (⟨((worked path units sink world order).common.conclude path).1, saves ++ [.close]⟩,
            ((worked path units sink world order).common.conclude path).2) := by
  have hmap := savesAs_traced.worked path units (⟨sink, []⟩ : Traced σ) world order
  have hnotes := notes_worked path units sink world order
  have hunits := map_unit_worked path units (⟨sink, []⟩ : Traced σ) world order
  rw [hmap] at hover ⊢
  have hnoted : (worked path units (⟨sink, []⟩ : Traced σ) world order).IsOver := hover
  rw [Progress.Notes, offeredOf_of_isOver hnoted, hunits] at hnotes
  exact ⟨_, hnotes, conclude_traced ..⟩

end Reline.Batch
