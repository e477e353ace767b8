/-
  Reline.Remap

  Pointing the line entries of a class at other lines.

  Every entry's line is sent through a line mapping; nothing else of the class
  changes. The report counts how the lines were resolved.
-/

import Reline.ClassFile.Read
import Reline.LineMapping

namespace Reline

/-- How many methods a class has, and how many of its entries were resolved in which way. -/
structure RemapReport where
  /-- Methods, with or without entries. -/
  methods : Nat
  /-- Entries whose line is listed. -/
  exact : Nat
  /-- Entries that took the target of the next listed line. -/
  ceiling : Nat
  /-- Entries that kept their line. -/
  unchanged : Nat
deriving DecidableEq, Repr

namespace RemapReport

/-- All entries. -/
def entries (report : RemapReport) : Nat :=
  report.exact + report.ceiling + report.unchanged

/-- Counts one more resolution. -/
def count (report : RemapReport) : Resolution → RemapReport
  | .exact _ => { report with exact := report.exact + 1 }
  | .ceiling _ => { report with ceiling := report.ceiling + 1 }
  | .unchanged _ => { report with unchanged := report.unchanged + 1 }

end RemapReport

namespace ClassFile

/-- The report of sending a class through a mapping. -/
def remapReport (m : LineMapping) (c : ClassFile) : RemapReport :=
  c.entries.foldl (fun report e => report.count (m.resolve e.line)) ⟨c.methods.length, 0, 0, 0⟩

/-- The class with every line sent through a mapping. -/
def remap (m : LineMapping) : ClassFile → ClassFile :=
  mapLines m.mapLine

end ClassFile

/-- Sends the lines of a class file through a mapping, giving the new bytes and the report. -/
def remapClass (m : LineMapping) (bytes : Bytes) :
    Except ClassFile.FormatError (Bytes × RemapReport) := do
  let c ← ClassFile.parse bytes
  return ((c.remap m).toBytes, c.remapReport m)

/-- Why lines could not be remapped by a flat list. -/
inductive RemapError where
  /-- The list is no line mapping. -/
  | mapping (cause : MappingError)
  /-- The bytes are no class file. -/
  | classFile (cause : ClassFile.FormatError)
deriving DecidableEq, Repr

/-- The text of the error. -/
def RemapError.message : RemapError → String
  | mapping cause => cause.message
  | classFile cause => cause.message

/-- Sends the lines of a class file through the mapping of a flat list. -/
def remapLines (bytes : Bytes) (flat : List Int) : Except RemapError Bytes := do
  let m ← (LineMapping.ofFlat flat).mapError .mapping
  let (bytes, _) ← (remapClass m bytes).mapError .classFile
  return bytes

end Reline
