/-
  Reline.Saver

  Saving one unit of decompiler output.

  The text goes to a sink. If the unit has a line mapping, the lines of its class
  in the source archive are remapped. Each of the two may fail without the other;
  failures are logged and do not end the work on other units.
-/

import Reline.Archive.Store
import Reline.ClassUnit
import Reline.Remap
import Reline.Sink.Basic

namespace Reline

/-- What became of the lines of a unit. -/
inductive LineOutcome where
  /-- The remapped class was staged in the archive. -/
  | persisted
  /-- The unit has no mapping, or an empty one. -/
  | skipped
  /-- The class could not be remapped. -/
  | failed
deriving DecidableEq, Repr

/-- What became of a unit. -/
structure SaveOutcome where
  /-- Whether the sink took the text. -/
  textSaved : Bool
  /-- What became of the lines. -/
  lines : LineOutcome
deriving DecidableEq, Repr

namespace Saver

/-- Why the lines of a class could not be remapped. -/
inductive PatchError where
  /-- The flat list of the unit is no mapping. -/
  | mapping (cause : MappingError)
  /-- The class could not be read from the archive, or not be written to it. -/
  | archive (cause : Archive.Error)
  /-- The entry is no class file. -/
  | classFile (cause : ClassFile.FormatError)
deriving DecidableEq, Repr

/-- The failure to report. -/
def PatchError.failure : PatchError → Failure
  | mapping cause => .during "Invalid line mapping" (.ofText cause.message)
  | archive cause => cause.failure
  | classFile cause => .ofText cause.message

/-- What is logged about a class that was remapped. -/
def remappedText (entry : String) (report : RemapReport) : String :=
  s!"Remapped {report.entries} line entries in {entry} ({report.exact} exact, " ++
    s!"{report.ceiling} ceiling, {report.unchanged} unchanged)"

/-- Remaps the lines of a class in an archive by a flat list. -/
def patchLines (store : Archive.Store) (world : World) (source entry : String) (flat : List Int) :
    Archive.Store × World × Except PatchError Unit :=
  match LineMapping.ofFlat flat with
  | .error e => (store, world, .error (.mapping e))
  | .ok m =>
    match store.read world source entry with
    | (store, world, .error e) => (store, world, .error (.archive e))
    | (store, world, .ok bytes) =>
      match remapClass m bytes with
      | .error e => (store, world, .error (.classFile e))
      | .ok (patched, report) =>
        match store.write world source entry patched with
        | (store, world, .error e) => (store, world, .error (.archive e))
        | (store, world, .ok ()) =>
          (store, world.record .debug .saver (remappedText entry report), .ok ())

/-- Saves the text of a unit, saying whether the sink took it. -/
def saveText {σ : Type} [TextSink σ] (sink : σ) (world : World) (unit : ClassUnit) :
    σ × World × Bool :=
  match TextSink.save sink world unit.qualifiedName unit.entryName unit.content with
  | (sink, world, .ok ()) => (sink, world, true)
  | (sink, world, .error e) =>
    (sink, world.record .warn .saver
      s!"Failed to save decompiled source {unit.entryName}: {e.line}", false)

/-- Remaps the lines of a unit's class. -/
def saveLines (store : Archive.Store) (world : World) (source : String) (unit : ClassUnit) :
    Archive.Store × World × LineOutcome :=
  match unit.mapping with
  | none | some [] => (store, world, .skipped)
  | some flat =>
    match patchLines store world source unit.classEntry flat with
    | (store, world, .ok ()) => (store, world, .persisted)
    | (store, world, .error e) =>
      (store, world.record .warn .saver
        s!"Line mapping failed on {unit.classEntry} in {source}: {e.failure.line}", .failed)

/-- Saves a unit of the classes in a source archive. -/
def saveUnit {σ : Type} [TextSink σ] (source : String) (sink : σ) (store : Archive.Store)
    (world : World) (unit : ClassUnit) : σ × Archive.Store × World × SaveOutcome :=
  let (sink, world, textSaved) := saveText sink world unit
  let (store, world, lines) := saveLines store world source unit
  (sink, store, world, { textSaved, lines })

end Saver

end Reline
