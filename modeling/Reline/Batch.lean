/-
  Reline.Batch

  Saving all units of a manifest.

  The units are saved one after the other into one sink and one store of
  archives. Then the sink is closed and after it the store, whatever happened
  before. If patched classes did not reach their archive, that is reported
  before a failure of the sink, because the archive may be left inconsistent.
-/

import Reline.Saver

namespace Reline

/-- What became of the units of a batch. -/
structure BatchSummary where
  /-- The path of the source archive. -/
  source : String
  /-- The number of units. -/
  units : Nat
  /-- Units whose class was remapped. -/
  persisted : Nat
  /-- Units without a mapping. -/
  skipped : Nat
  /-- Units whose class could not be remapped. -/
  failed : Nat
  /-- Units whose text the sink did not take. -/
  textFailures : Nat
deriving DecidableEq, Repr

namespace Batch

/-- The summary of a source before its first unit. -/
def start (source : String) : BatchSummary := ⟨source, 0, 0, 0, 0, 0⟩

/-- Counts one more outcome. -/
def count (summary : BatchSummary) (outcome : SaveOutcome) : BatchSummary :=
  { summary with
    units := summary.units + 1
    persisted := summary.persisted + if outcome.lines = .persisted then 1 else 0
    skipped := summary.skipped + if outcome.lines = .skipped then 1 else 0
    failed := summary.failed + if outcome.lines = .failed then 1 else 0
    textFailures := summary.textFailures + if outcome.textSaved then 0 else 1 }

/-- Saves units one after the other. -/
def saveUnits {σ : Type} [TextSink σ] (source : String) (sink : σ) (store : Archive.Store)
    (world : World) (summary : BatchSummary) :
    List ClassUnit → σ × Archive.Store × World × BatchSummary
  | [] => (sink, store, world, summary)
  | unit :: rest =>
    let (sink, store, world, outcome) := Saver.saveUnit source sink store world unit
    saveUnits source sink store world (count summary outcome) rest

/-- Why a batch failed. -/
inductive Error where
  /-- Patched classes did not reach their archives. -/
  | persist (source : String) (failures : List Archive.CloseFailure)
  /-- The sink could not be closed. -/
  | sink (cause : Failure)
deriving DecidableEq, Repr

/-- The failure to report. -/
def Error.failure : Error → Failure
  | persist source failures =>
    .during s!"Failed to persist patched classes in {source}"
      (.ofText (Archive.closeFailuresMessage failures))
  | sink cause => cause

/-- What is logged about a batch that succeeded. -/
def summaryText (summary : BatchSummary) : String :=
  s!"Processed {summary.units} classes from {summary.source}: {summary.persisted} remapped, " ++
    s!"{summary.skipped} without mapping, {summary.failed} failed"

/-- Saves all units of the classes in a source archive. -/
def run {σ : Type} [TextSink σ] (source : String) (units : List ClassUnit) (sink : σ)
    (world : World) : σ × World × Except Error BatchSummary :=
  let (sink, store, world, summary) := saveUnits source sink .empty world (start source) units
  let (sink, world, sinkClosed) := TextSink.close sink world
  let (_, world, failures) := store.closeAll world
  if !failures.isEmpty then (sink, world, .error (.persist source failures))
  else
    match sinkClosed with
    | .error e => (sink, world, .error (.sink e))
    | .ok () =>
      (sink, world.record .info .batch (summaryText summary), .ok summary)

end Batch

end Reline
