/-
  Reline.CommandLine.Report

  What the commands report about their results, and how that is printed.
-/

import Reline.Batch
import Reline.Json.Pretty

namespace Reline.CommandLine

/-- What a command that succeeded has to say. -/
inductive Report where
  /-- A batch was saved. -/
  | batch (summary : BatchSummary)
  /-- A class file was remapped; `changed` says whether any byte became another. -/
  | remapped (classFile output : String) (changed : Bool) (report : RemapReport)
  /-- The line tables of a class. -/
  | lines (source : String) (methods : List MethodLines)
deriving DecidableEq, Repr

/-! ## Printing -/

/-- The printed form of a batch that took some time. -/
def batchTree (summary : BatchSummary) (milliseconds : Nat) : Json.Tree :=
  .object [
    ("source", .text summary.source),
    ("units", .number summary.units),
    ("persisted", .number summary.persisted),
    ("skipped", .number summary.skipped),
    ("failed", .number summary.failed),
    ("text_failures", .number summary.textFailures),
    ("duration_ms", .number milliseconds)]

/-- The printed form of a class file that was remapped. -/
def remappedTree (classFile output : String) (changed : Bool) (report : RemapReport) : Json.Tree :=
  .object [
    ("class_path", .text classFile),
    ("output_path", .text output),
    ("changed", .boolean changed),
    ("report", .object [
      ("methods", .number report.methods),
      ("exact", .number report.exact),
      ("ceiling", .number report.ceiling),
      ("unchanged", .number report.unchanged)])]

/-- The printed form of a line entry. -/
def entryTree (e : LineEntry) : Json.Tree :=
  .object [("start_pc", .number e.startPc.toNat), ("line", .number e.line.toNat)]

/-- The printed form of a method. -/
def methodTree (m : MethodLines) : Json.Tree :=
  .object [
    ("name", .text m.name),
    ("descriptor", .text m.descriptor),
    ("entries", .list (m.entries.map entryTree))]

/-- The printed form of a report, given how long a batch took. -/
def Report.tree (milliseconds : Nat) : Report → Json.Tree
  | batch summary => batchTree summary milliseconds
  | remapped classFile output changed report => remappedTree classFile output changed report
  | lines source methods =>
    .object [("source", .text source), ("methods", .list (methods.map methodTree))]

end Reline.CommandLine
