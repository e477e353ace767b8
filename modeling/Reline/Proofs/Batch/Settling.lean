/-
  Reline.Proofs.Batch.Settling

  What becomes of the units of a batch, whatever the order in which they are
  worked on.

  If no two units with a mapping are for the same class, what a unit reads is
  what its class was before the batch: at no moment is anything staged for it but
  by the unit itself. So what becomes of the lines of a unit is settled by the
  archive alone, and so is what is staged when all units are done. The invariant
  says of every moment which units have written and which have been counted.

  Main statements: `Stands.goes`, `exists_stands_worked`.
-/

import Reline.Proofs.Archive.Alone
import Reline.Proofs.Batch.Fold
import Reline.Proofs.Batch.Schedule

namespace Reline.Batch

open Archive FileSystem

/-! ## Units -/

/-- Whether the lines of a unit are to be remapped. -/
def mapped (unit : ClassUnit) : Bool :=
  match unit.mapping with
  | none | some [] => false
  | some _ => true

/-- Whether no two units whose lines are to be remapped are for the same class. -/
def Apart (units : List ClassUnit) : Prop :=
  units.Pairwise fun a b =>
    mapped a = true → mapped b = true → normalizeEntry a.classEntry ≠ normalizeEntry b.classEntry

/-- The bytes that a unit makes of its class, if it is to be remapped and can be. -/
def made? (contents : Contents) (unit : ClassUnit) : Option Bytes :=
  match unit.mapping with
  | none | some [] => none
  | some flat => patched? contents unit.classEntry flat

/-- What becomes of the lines of a unit, given what the archive contains. -/
def verdict (contents : Contents) (unit : ClassUnit) : LineOutcome := (settle contents unit).1

variable {contents : Contents} {unit : ClassUnit} {bytes : Bytes}

theorem mapped_of_made (h : made? contents unit = some bytes) : mapped unit = true := by
  rw [made?] at h
  rw [mapped]
  rcases hmapping : unit.mapping with - | (- | ⟨line, flat⟩)
  · rw [hmapping] at h
    contradiction
  · rw [hmapping] at h
    contradiction
  · rfl

theorem verdict_eq (contents : Contents) (unit : ClassUnit) :
    verdict contents unit = if mapped unit = true then
      if (made? contents unit).isSome = true then .persisted else .failed
    else .skipped := by
  rw [verdict, settle, mapped, made?]
  rcases hmapping : unit.mapping with - | (- | ⟨line, flat⟩)
  · rfl
  · rfl
  · dsimp only
    rw [if_pos rfl]
    split
    case h_1 bytes hpatched => simp [hpatched]
    case h_2 hpatched => simp [hpatched]

theorem verdict_of_made (h : made? contents unit = some bytes) :
    verdict contents unit = .persisted := by
  rw [verdict_eq, if_pos (mapped_of_made h), h]
  rfl

theorem verdict_of_not_made (hmapped : mapped unit = true) (h : made? contents unit = none) :
    verdict contents unit = .failed := by
  rw [verdict_eq, if_pos hmapped, h]
  rfl

/-- What a unit makes of its class goes by what is read of it. -/
theorem made_shown {fs : FileSystem} {path : String} {line : Int} {flat : List Int}
    {m : LineMapping} (hmapping : unit.mapping = some (line :: flat))
    (hflat : LineMapping.ofFlat (line :: flat) = .ok m) :
    made? (shown fs path) unit
      = match (opening fs path).bind fun handle => handle.read fs unit.classEntry with
        | .ok bytes => (remapClass m bytes).toOption.map Prod.fst
        | .error _ => none := by
  rw [made?, hmapping]
  dsimp only
  rw [patched?, hflat, shown_normalizeEntry, shown]
  cases (opening fs path).bind fun handle => handle.read fs unit.classEntry with
  | error e => rfl
  | ok bytes => rfl

/-! ## Stages -/

/-- What became of a unit, as soon as that is known. -/
def Stage.outcome? : Stage → Option SaveOutcome
  | done outcome | counted outcome => some outcome
  | _ => none

/-- What was counted of a unit. -/
def Stage.counted? : Stage → Option SaveOutcome
  | counted outcome => some outcome
  | _ => none

theorem Stage.counted?_isSome_iff {stage : Stage} :
    stage.counted?.isSome = true ↔ ∃ outcome, stage = .counted outcome := by
  cases stage <;> simp [counted?]

instance {σ : Type} (progress : Progress σ) : Decidable progress.IsOver :=
  decidable_of_iff (∀ task ∈ progress.tasks, task.stage.counted?.isSome = true)
    (forall₂_congr fun _ _ => Stage.counted?_isSome_iff)

/-- Whether a unit has written its class. -/
def Stage.hasWritten (stage : Stage) : Prop :=
  ∃ outcome, stage.outcome? = some outcome ∧ outcome.lines = .persisted

/-- What is known of the work on a unit at a stage, given what the archive contained before the
batch. -/
def Stage.Fits (contents : Contents) (store : Store) (unit : ClassUnit) : Stage → Prop
  | waiting | offered _ => True
  | reading _ m id =>
    (∃ line flat, unit.mapping = some (line :: flat) ∧ LineMapping.ofFlat (line :: flat) = .ok m)
      ∧ store.Gives id
  | remapped _ bytes _ => made? contents unit = some bytes
  | writing _ bytes _ id => made? contents unit = some bytes ∧ store.Gives id
  | done outcome | counted outcome => outcome.lines = verdict contents unit

theorem Stage.not_hasWritten {stage : Stage} (h : stage.outcome? = none) : ¬ stage.hasWritten := by
  rintro ⟨outcome, houtcome, -⟩
  rw [h] at houtcome
  contradiction

theorem Stage.hasWritten_iff {stage : Stage} {outcome : SaveOutcome}
    (h : stage.outcome? = some outcome) : stage.hasWritten ↔ outcome.lines = .persisted := by
  rw [hasWritten, h]
  simp

theorem Stage.Fits.mono {store store' : Store} {stage : Stage} (h : stage.Fits contents store unit)
    (hgives : ∀ id, store.Gives id → store'.Gives id) : stage.Fits contents store' unit := by
  cases stage with
  | waiting => trivial
  | offered textSaved => trivial
  | reading textSaved m id => exact ⟨h.1, hgives id h.2⟩
  | remapped textSaved bytes report => exact h
  | writing textSaved bytes report id => exact ⟨h.1, hgives id h.2⟩
  | done outcome => exact h
  | counted outcome => exact h

/-! ## Sinks -/

/-- A change of the world that leaves alone places and the handles that are there. -/
structure Avoids (places : List Location) (world world' : World) : Prop where
  files : WellFormed world.files → Unchanged places world.files world'.files
  handles : ∀ (id : HandleId) (handle : Handle), world.handles[id]? = some handle →
    world'.handles[id]? = some handle

/-- A sink whose files are its own leaves places alone. -/
structure Avoiding {σ : Type} [TextSink σ] (places : List Location)
    (own : σ → FileSystem → Prop) : Prop where
  save : ∀ sink world qualifiedName entryName content, own sink world.files →
    own (TextSink.save sink world qualifiedName entryName content).1
        (TextSink.save sink world qualifiedName entryName content).2.1.files
      ∧ Avoids places world (TextSink.save sink world qualifiedName entryName content).2.1
  close : ∀ sink world, own sink world.files →
    Avoids places world (TextSink.close sink world).2.1

variable {σ : Type} [TextSink σ] {places : List Location} {own : σ → FileSystem → Prop}
  {fs : FileSystem} {path : String} {staged : OrderedTable String Bytes} {common : Common σ}

/-- Offering a text to the sink leaves the places alone, whatever the sink answers. -/
theorem Avoiding.saveText (h : Avoiding places own) {sink : σ} {world : World}
    (hown : own sink world.files) (unit : ClassUnit) :
    own (Saver.saveText sink world unit).1 (Saver.saveText sink world unit).2.1.files
      ∧ Avoids places world (Saver.saveText sink world unit).2.1 := by
  obtain ⟨hown', havoids⟩ :=
    h.save sink world unit.qualifiedName unit.entryName unit.content hown
  rw [Saver.saveText]
  generalize TextSink.save sink world unit.qualifiedName unit.entryName unit.content = saved
    at hown' havoids ⊢
  obtain ⟨sink', world', e | done⟩ := saved
  · exact ⟨hown', havoids.files, havoids.handles⟩
  · exact ⟨hown', havoids⟩

/-! ## One step -/

/-- What is known of what the workers share. -/
structure Settled (fs : FileSystem) (path : String) (own : σ → FileSystem → Prop)
    (staged : OrderedTable String Bytes) (common : Common σ) : Prop where
  files : Unchanged (archivePlaces fs path) fs common.world.files
  holding : Holding fs path common.store common.world staged
  own : own common.sink common.world.files

/-- What a step of the work on a unit does. -/
structure Goes (fs : FileSystem) (path : String) (own : σ → FileSystem → Prop) (unit : ClassUnit)
    (staged : OrderedTable String Bytes) (common : Common σ) (stage : Stage)
    (staged' : OrderedTable String Bytes) (common' : Common σ) (stage' : Stage) : Prop where
  settled : Settled fs path own staged' common'
  fits : stage'.Fits (shown fs path) common'.store unit
  gives : ∀ id, common.store.Gives id → common'.store.Gives id
  written : staged' = staged ∧ (stage'.hasWritten ↔ stage.hasWritten)
    ∨ ¬ stage.hasWritten ∧ stage'.hasWritten ∧ ∃ bytes, made? (shown fs path) unit = some bytes
      ∧ staged' = staged.insert (normalizeEntry unit.classEntry) bytes
  counted : common'.summary = common.summary ∧ stage'.counted? = stage.counted?
    ∨ stage.counted? = none ∧ ∃ outcome, stage'.counted? = some outcome
      ∧ common'.summary = count common.summary outcome

omit [TextSink σ] in
/-- Records in the log make no difference. -/
theorem Settled.record (h : Settled fs path own staged common) (level : Log.Level)
    (origin : Log.Source) (text : String) :
    Settled fs path own staged
      { common with world := common.world.record level origin text } where
  files := ⟨h.files.wellFormed, h.files.current, h.files.same⟩
  holding := h.holding.mono fun _ _ hid => hid
  own := h.own

variable {stage stage' : Stage} {common' : Common σ}

omit [TextSink σ] in
/-- A step that neither writes nor counts. -/
theorem Goes.of_settled (h : Settled fs path own staged common')
    (hfits : stage'.Fits (shown fs path) common'.store unit)
    (hgives : ∀ id, common.store.Gives id → common'.store.Gives id)
    (hwritten : stage'.hasWritten ↔ stage.hasWritten)
    (hsummary : common'.summary = common.summary) (hcounted : stage'.counted? = stage.counted?) :
    Goes fs path own unit staged common stage staged common' stage' :=
  ⟨h, hfits, hgives, .inl ⟨rfl, hwritten⟩, .inl ⟨hsummary, hcounted⟩⟩

omit [TextSink σ] in
/-- A step with which the lines of a unit have failed. -/
theorem Goes.of_fail (h : Settled fs path own staged common')
    (hgives : ∀ id, common.store.Gives id → common'.store.Gives id)
    (hsummary : common'.summary = common.summary) (hstage : stage.outcome? = none)
    (hcounted : stage.counted? = none) (hmapped : mapped unit = true)
    (hmade : made? (shown fs path) unit = none) (textSaved : Bool) (e : Saver.PatchError) :
    Goes fs path own unit staged common stage staged (common'.fail path unit textSaved e).1
      (common'.fail path unit textSaved e).2 := by
  have hfailed := verdict_of_not_made hmapped hmade
  refine .of_settled (h.record ..) hfailed.symm hgives ?_ hsummary hcounted.symm
  rw [Stage.hasWritten_iff rfl]
  exact iff_of_false nofun (Stage.not_hasWritten hstage)

variable (hfiles : WellFormed fs)
include hfiles

omit [TextSink σ] in
/-- Asking the store for the archive. -/
theorem Settled.handle (h : Settled fs path own staged common) :
    ∃ store world result, common.store.handle common.world path = (store, world, result)
      ∧ Settled fs path own staged { common with store, world }
      ∧ (∀ id, common.store.Gives id → store.Gives id)
      ∧ ((∃ e, opening fs path = .error e ∧ result = .error e)
        ∨ ∃ handle id, opening fs path = .ok handle ∧ result = .ok id ∧ store.Gives id) := by
  obtain ⟨store, world, result, hhandle, hholding, hsame, hgives, hresult⟩ :=
    h.holding.handle hfiles h.files
  refine ⟨store, world, result, hhandle, ⟨?_, hholding, ?_⟩, hgives, hresult⟩
  · rw [hsame]
    exact h.files
  · rw [hsame]
    exact h.own

/-- From its text on, a unit without a mapping is done; for the others the handle is asked for. -/
theorem Settled.goes_offered (h : Settled fs path own staged common) (textSaved : Bool) :
    Goes fs path own unit staged common (.offered textSaved) staged
      ((Stage.offered textSaved).next path unit common).1
      ((Stage.offered textSaved).next path unit common).2 := by
  -- nothing is looked up for a unit without a mapping
  have hskipped (hmapped : mapped unit = false) :
      Goes fs path own unit staged common (.offered textSaved) staged common
        (.done ⟨textSaved, .skipped⟩) := by
    refine .of_settled h ?_ (fun _ hgives => hgives) ?_ rfl rfl
    · rw [Stage.Fits, verdict_eq, hmapped, if_neg Bool.false_ne_true]
    · rw [Stage.hasWritten_iff rfl]
      exact iff_of_false nofun (Stage.not_hasWritten rfl)
  rw [Stage.next]
  rcases hmapping : unit.mapping with - | (- | ⟨line, flat⟩)
  · exact hskipped (by rw [mapped, hmapping])
  · exact hskipped (by rw [mapped, hmapping])
  · have hmapped : mapped unit = true := by rw [mapped, hmapping]
    dsimp only
    cases hflat : LineMapping.ofFlat (line :: flat) with
    | error e =>
      have hmade : made? (shown fs path) unit = none := by
        rw [made?, hmapping]
        dsimp only
        rw [patched?, hflat]
      exact .of_fail h (fun _ hgives => hgives) rfl rfl rfl hmapped hmade textSaved _
    | ok m =>
      obtain ⟨store, world, result, hhandle, hsettled, hgives, hresult⟩ := h.handle hfiles
      dsimp only
      rw [hhandle]
      rcases hresult with ⟨e, hopening, rfl⟩ | ⟨handle, id, -, rfl, hgiven⟩
      · have hmade : made? (shown fs path) unit = none := by
          rw [made_shown hmapping hflat, hopening]
          rfl
        exact .of_fail hsettled hgives rfl rfl rfl hmapped hmade textSaved _
      · exact .of_settled hsettled ⟨⟨line, flat, hmapping, hflat⟩, hgiven⟩ hgives
          (iff_of_false (Stage.not_hasWritten rfl) (Stage.not_hasWritten rfl)) rfl rfl

omit hfiles in
/-- What a unit reads is what its class was before the batch, if nothing is staged for it. -/
theorem Settled.goes_reading (h : Settled fs path own staged common) {textSaved : Bool}
    {m : LineMapping} {id : HandleId}
    (hfits : (Stage.reading textSaved m id).Fits (shown fs path) common.store unit)
    (hunstaged : staged.get? (normalizeEntry unit.classEntry) = none) :
    Goes fs path own unit staged common (.reading textSaved m id) staged
      ((Stage.reading textSaved m id).next path unit common).1
      ((Stage.reading textSaved m id).next path unit common).2 := by
  obtain ⟨⟨line, flat, hmapping, hflat⟩, hgiven⟩ := hfits
  have hmapped : mapped unit = true := by rw [mapped, hmapping]
  have hmade : made? (shown fs path) unit = _ := made_shown hmapping hflat
  rw [Stage.next, h.holding.readEntry hgiven h.files hunstaged]
  cases hread : (opening fs path).bind fun handle => handle.read fs unit.classEntry with
  | error e =>
    rw [hread] at hmade
    exact .of_fail h (fun _ hgives => hgives) rfl rfl rfl hmapped hmade textSaved _
  | ok bytes =>
    rw [hread] at hmade
    dsimp only at hmade
    rw [Common.ofRead]
    cases hremap : remapClass m bytes with
    | error e =>
      rw [hremap] at hmade
      exact .of_fail h (fun _ hgives => hgives) rfl rfl rfl hmapped hmade textSaved _
    | ok pair =>
      rw [hremap] at hmade
      exact .of_settled h hmade (fun _ hgives => hgives)
        (iff_of_false (Stage.not_hasWritten rfl) (Stage.not_hasWritten rfl)) rfl rfl

/-- A unit that has something to write gets the handle again. -/
theorem Settled.goes_remapped (h : Settled fs path own staged common) {textSaved : Bool}
    {bytes : Bytes} {report : RemapReport}
    (hfits : (Stage.remapped textSaved bytes report).Fits (shown fs path) common.store unit) :
    Goes fs path own unit staged common (.remapped textSaved bytes report) staged
      ((Stage.remapped textSaved bytes report).next path unit common).1
      ((Stage.remapped textSaved bytes report).next path unit common).2 := by
  obtain ⟨store, world, result, hhandle, hsettled, hgives, hresult⟩ := h.handle hfiles
  rw [Stage.next, hhandle]
  rcases hresult with ⟨e, hopening, rfl⟩ | ⟨handle, id, -, rfl, hgiven⟩
  · -- nothing would have been read
    have hmade : made? (shown fs path) unit = some bytes := hfits
    rw [made?] at hmade
    have hshown : shown fs path (normalizeEntry unit.classEntry) = none := by
      rw [shown, hopening]
      rfl
    rcases hmapping : unit.mapping with - | (- | ⟨line, flat⟩) <;> rw [hmapping] at hmade
    · contradiction
    · contradiction
    · dsimp only at hmade
      rw [patched?, hshown] at hmade
      split at hmade <;> contradiction
  · exact .of_settled hsettled ⟨hfits, hgiven⟩ hgives
      (iff_of_false (Stage.not_hasWritten rfl) (Stage.not_hasWritten rfl)) rfl rfl

omit hfiles in
/-- The write of a unit succeeds. -/
theorem Settled.goes_writing (h : Settled fs path own staged common) {textSaved : Bool}
    {bytes : Bytes} {report : RemapReport} {id : HandleId}
    (hfits : (Stage.writing textSaved bytes report id).Fits (shown fs path) common.store unit) :
    Goes fs path own unit staged common (.writing textSaved bytes report id)
      (staged.insert (normalizeEntry unit.classEntry) bytes)
      ((Stage.writing textSaved bytes report id).next path unit common).1
      ((Stage.writing textSaved bytes report id).next path unit common).2 := by
  obtain ⟨hmade, hgiven⟩ := hfits
  obtain ⟨world, hwrite, hholding, hsame⟩ := h.holding.writeEntry hgiven unit.classEntry bytes
  have hsettled : Settled fs path own (staged.insert (normalizeEntry unit.classEntry) bytes)
      { common with world } := by
    refine ⟨?_, hholding, ?_⟩
    · rw [hsame]
      exact h.files
    · rw [hsame]
      exact h.own
  rw [Stage.next, hwrite]
  exact {
    settled := hsettled.record ..
    fits := (verdict_of_made hmade).symm
    gives := fun _ hgives => hgives
    written := .inr ⟨Stage.not_hasWritten rfl, (Stage.hasWritten_iff rfl).2 rfl, bytes, hmade, rfl⟩
    counted := .inl ⟨rfl, rfl⟩ }

/-- A step of the work on a unit keeps what is known, and writes or counts at most what the unit is
to write and what becomes of it. -/
theorem Settled.goes (havoiding : Avoiding (archivePlaces fs path) own)
    (h : Settled fs path own staged common)
    (hfits : stage.Fits (shown fs path) common.store unit)
    (hunstaged : mapped unit = true → ¬ stage.hasWritten →
      staged.get? (normalizeEntry unit.classEntry) = none) :
    ∃ staged', Goes fs path own unit staged common stage staged'
      (stage.next path unit common).1 (stage.next path unit common).2 := by
  cases stage with
  | waiting =>
    obtain ⟨hown, havoids⟩ := havoiding.saveText h.own unit
    refine ⟨staged, .of_settled ⟨h.files.trans (havoids.files h.files.wellFormed),
      h.holding.mono havoids.handles, hown⟩ trivial (fun _ hgives => hgives)
      (iff_of_false (Stage.not_hasWritten rfl) (Stage.not_hasWritten rfl)) rfl rfl⟩
  | offered textSaved => exact ⟨staged, h.goes_offered hfiles textSaved⟩
  | reading textSaved m id =>
    have hmapped : mapped unit = true := by
      obtain ⟨⟨line, flat, hmapping, -⟩, -⟩ := hfits
      rw [mapped, hmapping]
    exact ⟨staged, h.goes_reading hfits (hunstaged hmapped (Stage.not_hasWritten rfl))⟩
  | remapped textSaved bytes report => exact ⟨staged, h.goes_remapped hfiles hfits⟩
  | writing textSaved bytes report id => exact ⟨_, h.goes_writing hfits⟩
  | done outcome =>
    exact ⟨staged, {
      settled := ⟨h.files, h.holding, h.own⟩
      fits := hfits
      gives := fun _ hgives => hgives
      written := .inl ⟨rfl, Iff.rfl⟩
      counted := .inr ⟨rfl, outcome, rfl, rfl⟩ }⟩
  | counted outcome => exact ⟨staged, .of_settled h hfits (fun _ hgives => hgives) Iff.rfl rfl rfl⟩

omit hfiles

/-! ## Any order -/

/-- What was counted of units. -/
def countedOf (tasks : List Task) : List SaveOutcome :=
  tasks.filterMap fun task => task.stage.counted?

/-- The summary in which these outcomes have been counted. -/
def tallied (path : String) (outcomes : List SaveOutcome) : BatchSummary :=
  tally (start path) (outcomes.map SaveOutcome.lines)
    (outcomes.countP fun outcome => !outcome.textSaved)

/-- It does not matter which of the outcomes is counted last. -/
theorem tallied_append_cons (path : String) (front back : List SaveOutcome)
    (outcome : SaveOutcome) :
    tallied path (front ++ outcome :: back) = count (tallied path (front ++ back)) outcome := by
  obtain ⟨textSaved, lines⟩ := outcome
  cases textSaved <;> cases lines <;>
    simp [tallied, tally, count, List.count_append, List.countP_append] <;> omega

/-- What is known of a batch at a moment. -/
structure Stands (fs : FileSystem) (path : String) (own : σ → FileSystem → Prop)
    (progress : Progress σ) (staged : OrderedTable String Bytes) : Prop where
  settled : Settled fs path own staged progress.common
  fits : ∀ task ∈ progress.tasks,
    task.stage.Fits (shown fs path) progress.common.store task.unit
  staged : ∀ n bytes, staged.get? n = some bytes ↔ ∃ task ∈ progress.tasks,
    task.stage.hasWritten ∧ normalizeEntry task.unit.classEntry = n
      ∧ made? (shown fs path) task.unit = some bytes
  summary : progress.common.summary = tallied path (countedOf progress.tasks)

omit [TextSink σ] in
theorem stands_start {sink : σ} {world : World} (hfiles : WellFormed world.files)
    (hown : own sink world.files) (units : List ClassUnit) :
    Stands world.files path own (.start path sink world units) ∅ where
  settled := ⟨.refl hfiles _, .fresh rfl rfl, hown⟩
  fits := by
    intro task htask
    obtain ⟨unit, -, rfl⟩ := List.mem_map.1 htask
    trivial
  staged := by
    intro n bytes
    rw [OrderedTable.get?_empty]
    refine iff_of_false nofun ?_
    rintro ⟨task, htask, hwritten, -⟩
    obtain ⟨unit, -, rfl⟩ := List.mem_map.1 htask
    exact Stage.not_hasWritten rfl hwritten
  summary := by
    have hnone : countedOf (Progress.start path sink world units).tasks = [] := by
      refine List.filterMap_eq_nil_iff.2 fun task htask => ?_
      obtain ⟨unit, -, rfl⟩ := List.mem_map.1 htask
      rfl
    rw [hnone]
    rfl

/-- No unit but the one itself writes its class. -/
theorem Apart.ne_of_mem {front back : List Task} {task other : Task}
    (h : Apart ((front ++ task :: back).map Task.unit)) (hother : other ∈ front ++ back)
    (hmapped : mapped task.unit = true) (hmapped' : mapped other.unit = true) :
    normalizeEntry other.unit.classEntry ≠ normalizeEntry task.unit.classEntry := by
  rw [Apart, List.map_append, List.map_cons, List.pairwise_append, List.pairwise_cons] at h
  obtain ⟨-, ⟨hback, -⟩, hfront⟩ := h
  rcases List.mem_append.1 hother with hmem | hmem
  · exact hfront _ (List.mem_map_of_mem hmem) _ (List.mem_cons_self ..) hmapped' hmapped
  · exact (hback _ (List.mem_map_of_mem hmem) hmapped hmapped').symm

theorem exists_mem_append_cons {front back : List Task} {task : Task} {P : Task → Prop} :
    (∃ other ∈ front ++ task :: back, P other) ↔ P task ∨ ∃ other ∈ front ++ back, P other := by
  simp only [List.perm_middle.mem_iff, List.exists_mem_cons_iff]

theorem countedOf_append_cons (front back : List Task) (unit : ClassUnit) (stage : Stage) :
    countedOf (front ++ ⟨unit, stage⟩ :: back)
      = countedOf front ++ (stage.counted?.toList ++ countedOf back) := by
  rw [countedOf, List.filterMap_append, List.filterMap_cons]
  cases stage.counted? <;> rfl

omit [TextSink σ] in
/-- What is staged for the class of a unit was written by the unit. -/
theorem Stands.unstaged {front back : List Task} {stage : Stage}
    (hapart : Apart ((front ++ ⟨unit, stage⟩ :: back).map Task.unit))
    (h : Stands fs path own ⟨common, front ++ ⟨unit, stage⟩ :: back⟩ staged)
    (hmapped : mapped unit = true) (hwritten : ¬ stage.hasWritten) :
    staged.get? (normalizeEntry unit.classEntry) = none := by
  refine Option.eq_none_iff_forall_ne_some.2 fun bytes hget => ?_
  rcases exists_mem_append_cons.1 ((h.staged _ _).1 hget) with
    ⟨hthis, -⟩ | ⟨other, hother, -, hname, hmade⟩
  · exact hwritten hthis
  · exact hapart.ne_of_mem hother hmapped (mapped_of_made hmade) hname

omit [TextSink σ] in
/-- A step of one unit keeps what is known of the batch. -/
theorem Stands.goes {front back : List Task} {stage stage' : Stage} {common' : Common σ}
    {staged' : OrderedTable String Bytes}
    (hapart : Apart ((front ++ ⟨unit, stage⟩ :: back).map Task.unit))
    (h : Stands fs path own ⟨common, front ++ ⟨unit, stage⟩ :: back⟩ staged)
    (hgoes : Goes fs path own unit staged common stage staged' common' stage') :
    Stands fs path own ⟨common', front ++ ⟨unit, stage'⟩ :: back⟩ staged' where
  settled := hgoes.settled
  fits := by
    intro task htask
    rcases List.mem_cons.1 (List.perm_middle.mem_iff.1 htask) with rfl | hother
    · exact hgoes.fits
    · have hbefore := h.fits task (List.perm_middle.mem_iff.2 (List.mem_cons_of_mem _ hother))
      exact hbefore.mono hgoes.gives
  staged := by
    intro n bytes
    have hbefore := h.staged n bytes
    rw [exists_mem_append_cons] at hbefore ⊢
    -- if the unit has written now, what is staged for its class is what it made of it
    rcases hgoes.written with ⟨rfl, hsame⟩ | ⟨hnot, hwritten, bytes₀, hmade, rfl⟩
    · rw [hbefore, hsame]
    · rw [OrderedTable.get?_insert]
      split
      case isTrue hn =>
        subst hn
        constructor
        · intro hbytes
          cases hbytes
          exact .inl ⟨hwritten, rfl, hmade⟩
        · rintro (⟨-, -, hmade'⟩ | ⟨other, hother, -, hname, hmade'⟩)
          · exact hmade.symm.trans hmade'
          · -- no other unit is for the same class
            exact absurd hname
              (hapart.ne_of_mem hother (mapped_of_made hmade) (mapped_of_made hmade'))
      case isFalse hn =>
        rw [hbefore]
        constructor
        · rintro (⟨hwritten', -⟩ | hother)
          · exact absurd hwritten' hnot
          · exact .inr hother
        · rintro (⟨-, hname, -⟩ | hother)
          · exact absurd hname.symm hn
          · exact .inr hother
  summary := by
    have hbefore := h.summary
    dsimp only at hbefore ⊢
    rw [countedOf_append_cons] at hbefore ⊢
    rcases hgoes.counted with ⟨hsummary, hcounted⟩ | ⟨hnone, outcome, hsome, hsummary⟩
    · rw [hsummary, hcounted, hbefore]
    · rw [hnone] at hbefore
      rw [hsummary, hsome, hbefore]
      exact (tallied_append_cons ..).symm

/-- What is known of a batch, whatever the order of its steps. -/
theorem exists_stands_worked {units : List ClassUnit} {sink : σ} {world : World}
    (hfiles : WellFormed world.files) (hapart : Apart units)
    (havoiding : Avoiding (archivePlaces world.files path) own) (hown : own sink world.files)
    (order : List Nat) :
    ∃ staged, Stands world.files path own (worked path units sink world order) staged := by
  refine worked_invariant
    (P := fun progress => ∃ staged, Stands world.files path own progress staged)
    (fun common front unit stage back hunits h => ?_) ⟨∅, stands_start hfiles hown units⟩ order
  obtain ⟨staged, h⟩ := h
  subst hunits
  have hfits : stage.Fits (shown world.files path) common.store unit :=
    h.fits ⟨unit, stage⟩ (List.mem_append_right _ (List.mem_cons_self ..))
  obtain ⟨staged', hgoes⟩ := h.settled.goes hfiles havoiding hfits (h.unstaged hapart)
  exact ⟨staged', h.goes hapart hgoes⟩

/-! ## When all units are done -/

omit [TextSink σ] in
/-- What is staged in the end is what the units make of their classes. -/
theorem Stands.staged_of_isOver {progress : Progress σ} (h : Stands fs path own progress staged)
    (hover : progress.IsOver) (n : String) (bytes : Bytes) :
    staged.get? n = some bytes ↔ ∃ unit ∈ progress.tasks.map Task.unit,
      normalizeEntry unit.classEntry = n ∧ made? (shown fs path) unit = some bytes := by
  rw [h.staged]
  constructor
  · rintro ⟨task, htask, -, hname, hmade⟩
    exact ⟨task.unit, List.mem_map_of_mem htask, hname, hmade⟩
  · rintro ⟨unit, hunit, hname, hmade⟩
    obtain ⟨task, htask, rfl⟩ := List.mem_map.1 hunit
    refine ⟨task, htask, ?_, hname, hmade⟩
    obtain ⟨outcome, hstage⟩ := hover task htask
    have hfits := h.fits task htask
    rw [hstage] at hfits ⊢
    exact (Stage.hasWritten_iff rfl).2 (hfits.trans (verdict_of_made hmade))

omit [TextSink σ] in
/-- What is counted in the end is what becomes of the lines of each unit, and the texts that the
sink refused. -/
theorem Stands.summary_of_isOver {progress : Progress σ} (h : Stands fs path own progress staged)
    (hover : progress.IsOver) :
    progress.common.summary
      = tally (start path) (progress.tasks.map fun task => verdict (shown fs path) task.unit)
        ((countedOf progress.tasks).countP fun outcome => !outcome.textSaved) := by
  have hlines : (countedOf progress.tasks).map SaveOutcome.lines
      = progress.tasks.map fun task => verdict (shown fs path) task.unit := by
    have hfits := h.fits
    rw [Progress.IsOver] at hover
    generalize progress.tasks = tasks at hover hfits ⊢
    induction tasks with
    | nil => rfl
    | cons task tasks ih =>
      obtain ⟨⟨outcome, hstage⟩, hrest⟩ := List.forall_mem_cons.1 hover
      obtain ⟨hfit, hfitRest⟩ := List.forall_mem_cons.1 hfits
      rw [hstage] at hfit
      rw [countedOf, List.filterMap_cons, hstage]
      exact congrArg₂ List.cons hfit (ih hrest hfitRest)
  rw [h.summary, tallied, hlines]

end Reline.Batch
