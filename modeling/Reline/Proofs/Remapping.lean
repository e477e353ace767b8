/-
  Reline.Proofs.Remapping

  Sending the lines of a class file through a mapping.

  Main statement (`remapClass_changes_lines_only`): bytes are refused exactly if
  they are no class file. Otherwise nothing but lines changes, every line is the
  one that the mapping gives, and the report counts how the lines were resolved.
-/

import Reline.Remap
import Reline.Proofs.ClassFile.Relining

namespace Reline

/-! ## Resolutions -/

namespace Resolution

/-- Whether the table lists the line. -/
def isExact : Resolution → Bool
  | exact _ => true
  | _ => false

/-- Whether a greater line that the table lists decides. -/
def isCeiling : Resolution → Bool
  | ceiling _ => true
  | _ => false

/-- Whether the line stays. -/
def isUnchanged : Resolution → Bool
  | unchanged _ => true
  | _ => false

end Resolution

/-- A line that is neither listed nor below a listed one goes to itself. -/
theorem LineMapping.mapLine_of_isUnchanged {m : LineMapping} {line : UInt16}
    (h : (m.resolve line).isUnchanged = true) : m.mapLine line = line := by
  unfold LineMapping.mapLine
  unfold LineMapping.resolve at h ⊢
  split at h
  · contradiction
  · split at h
    · contradiction
    · rfl

/-! ## The report -/

variable (m : LineMapping)

/-- Counting the resolutions of lines. -/
theorem foldl_count (entries : List LineEntry) (report : RemapReport) :
    entries.foldl (fun report e => report.count (m.resolve e.line)) report
      = { report with
          exact := report.exact + entries.countP fun e => (m.resolve e.line).isExact
          ceiling := report.ceiling + entries.countP fun e => (m.resolve e.line).isCeiling
          unchanged :=
            report.unchanged + entries.countP fun e => (m.resolve e.line).isUnchanged } := by
  induction entries generalizing report with
  | nil => rfl
  | cons e entries ih =>
    rw [List.foldl_cons, ih]
    cases hresolve : m.resolve e.line <;>
      simp [RemapReport.count, Resolution.isExact, Resolution.isCeiling, Resolution.isUnchanged,
        hresolve] <;> omega

theorem RemapReport.entries_count (report : RemapReport) (resolution : Resolution) :
    (report.count resolution).entries = report.entries + 1 := by
  cases resolution <;> simp only [RemapReport.count, RemapReport.entries] <;> omega

/-- Every line is counted once. -/
theorem entries_foldl_count (entries : List LineEntry) (report : RemapReport) :
    (entries.foldl (fun report e => report.count (m.resolve e.line)) report).entries
      = report.entries + entries.length := by
  induction entries generalizing report with
  | nil => rfl
  | cons e entries ih =>
    rw [List.foldl_cons, ih, RemapReport.entries_count, List.length_cons]
    omega

namespace ClassFile

/-! ## The class file -/

theorem remapReport_eq (c : ClassFile) :
    c.remapReport m = ⟨c.methods.length, c.entries.countP fun e => (m.resolve e.line).isExact,
      c.entries.countP fun e => (m.resolve e.line).isCeiling,
      c.entries.countP fun e => (m.resolve e.line).isUnchanged⟩ := by
  rw [remapReport, foldl_count]
  simp only [Nat.zero_add]

theorem entries_remapReport (c : ClassFile) : (c.remapReport m).entries = c.entries.length := by
  rw [remapReport, entries_foldl_count]
  exact Nat.zero_add _

theorem edited_remap (c : ClassFile) : c.Edited (c.remap m) where
  bytes := rfl
  names := by
    rw [names, remap, mapLines, mapEntries, List.map_map]
    rfl
  descriptors := by
    rw [descriptors, remap, mapLines, mapEntries, List.map_map]
    rfl
  offsets := by
    rw [offsets, remap, mapLines, mapEntries, List.map_map]
    exact List.map_congr_left fun method _ => List.map_map

theorem lines_remap (c : ClassFile) : (c.remap m).lines = c.lines.map (List.map m.mapLine) := by
  rw [lines, lines, remap, mapLines, mapEntries, List.map_map, List.map_map]
  refine List.map_congr_left fun method _ => ?_
  rw [Function.comp_apply, Function.comp_apply, List.map_map, List.map_map]
  rfl

/-- The lines change unless every line is mapped to itself. -/
theorem lines_remap_eq_iff {m : LineMapping} {c : ClassFile} :
    (c.remap m).lines = c.lines ↔ ∀ e ∈ c.entries, m.mapLine e.line = e.line := by
  rw [lines_remap, lines, List.map_map]
  simp only [List.map_inj_left, Function.comp_apply, List.map_map, entries, List.mem_flatMap]
  constructor
  · rintro h e ⟨method, hmethod, he⟩
    exact h method hmethod e he
  · intro h method hmethod e he
    exact h e ⟨method, hmethod, he⟩

/-- Mapping lines that all stay changes none. -/
theorem lines_remap_of_isUnchanged {m : LineMapping} {c : ClassFile}
    (h : ∀ e ∈ c.entries, (m.resolve e.line).isUnchanged = true) : (c.remap m).lines = c.lines :=
  lines_remap_eq_iff.2 fun e he => LineMapping.mapLine_of_isUnchanged (h e he)

/-- What is written changes exactly if a line does. -/
theorem toBytes_remap_eq_iff {m : LineMapping} {bytes : Bytes} {c : ClassFile}
    (hparse : parse bytes = .ok c) :
    (c.remap m).toBytes = bytes ↔ ∀ e ∈ c.entries, m.mapLine e.line = e.line := by
  rw [← lines_remap_eq_iff]
  constructor
  · intro hsame
    obtain ⟨d, hread, -, -, -, -, -, hlines⟩ := exists_parse_toBytes hparse (edited_remap m c)
    rw [hsame, hparse] at hread
    cases hread
    exact hlines.symm
  · intro hlines
    rw [toBytes_congr (Edited.refl c) (edited_remap m c) hlines, toBytes_of_parse hparse]

end ClassFile

open ClassFile

theorem remapClass_eq_error_iff (bytes : Bytes) (e : FormatError) :
    remapClass m bytes = .error e ↔ parse bytes = .error e := by
  rw [remapClass]
  cases parse bytes with
  | error e' =>
    constructor <;>
    · intro h
      cases h
      rfl
  | ok c => exact ⟨nofun, nofun⟩

theorem exists_of_remapClass_eq_ok {bytes out : Bytes} {report : RemapReport}
    (h : remapClass m bytes = .ok (out, report)) :
    ∃ c, parse bytes = .ok c ∧ out = (c.remap m).toBytes ∧ report = c.remapReport m := by
  rw [remapClass] at h
  cases hparse : parse bytes with
  | error e =>
    rw [hparse] at h
    contradiction
  | ok c =>
    rw [hparse] at h
    cases h
    exact ⟨c, rfl, rfl, rfl⟩

/-- Remapping refuses what is no class file. Otherwise the result has the same length and the same
bytes outside of the lines, and it is read as the same methods with each line mapped. The report
counts the methods and, by their kinds, the resolutions of all lines. If no line is listed or below
a listed one, nothing changes. -/
theorem remapClass_changes_lines_only (bytes : Bytes) :
    (∀ e, remapClass m bytes = .error e ↔ parse bytes = .error e)
      ∧ ∀ (out : Bytes) (report : RemapReport), remapClass m bytes = .ok (out, report) →
        ∃ c d, parse bytes = .ok c ∧ parse out = .ok d
          ∧ out.length = bytes.length
          ∧ (∀ i : Nat, (∀ e ∈ c.entries, i ≠ e.offset ∧ i ≠ e.offset + 1) → out[i]? = bytes[i]?)
          ∧ d.names = c.names ∧ d.descriptors = c.descriptors ∧ d.counts = c.counts
          ∧ d.startPcs = c.startPcs ∧ d.lines = c.lines.map (List.map m.mapLine)
          ∧ report.methods = c.methods.length
          ∧ report.exact = c.entries.countP (fun e => (m.resolve e.line).isExact)
          ∧ report.ceiling = c.entries.countP (fun e => (m.resolve e.line).isCeiling)
          ∧ report.unchanged = c.entries.countP (fun e => (m.resolve e.line).isUnchanged)
          ∧ report.exact + report.ceiling + report.unchanged = c.entries.length
          ∧ (report.exact = 0 → report.ceiling = 0 → out = bytes) := by
  refine ⟨remapClass_eq_error_iff m bytes, fun out report h => ?_⟩
  obtain ⟨c, hparse, rfl, rfl⟩ := exists_of_remapClass_eq_ok m h
  have hedited := edited_remap m c
  obtain ⟨d, hread, -, hnames, hdescriptors, hoffsets, hstartPcs, hlines⟩ :=
    exists_parse_toBytes hparse hedited
  have hreport := remapReport_eq m c
  have htotal := entries_remapReport m c
  refine ⟨c, d, hparse, hread, length_toBytes hparse hedited, ?_, hnames, hdescriptors,
    counts_eq_of_offsets hoffsets, hstartPcs, hlines.trans (lines_remap m c),
    congrArg RemapReport.methods hreport, congrArg RemapReport.exact hreport,
    congrArg RemapReport.ceiling hreport, congrArg RemapReport.unchanged hreport, htotal, ?_⟩
  · intro i hi
    by_contra hne
    obtain ⟨k, e, -, he, -, -, hplace⟩ := exists_entry_of_getElem?_toBytes_ne hparse hedited hne
    obtain ⟨hfirst, hsecond⟩ := hi e (List.mem_of_getElem? he)
    exact hplace.elim hfirst hsecond
  · intro hnoExact hnoCeiling
    -- all lines stay, so what is written is what the unchanged class file would be written as
    rw [RemapReport.entries, hnoExact, hnoCeiling, Nat.zero_add, hreport,
      List.countP_eq_length] at htotal
    have hstay := lines_remap_of_isUnchanged htotal
    rw [toBytes_congr (Edited.refl c) hedited hstay, toBytes_of_parse hparse]

/-- The pair of 11 and 300 moves the line 10, the next listed line of which is 11, and leaves 12. -/
theorem remapClass_twoLines :
    ∃ out report d, remapClass (.ofPairs [(11, 300)]) twoLines = .ok (out, report)
      ∧ parse out = .ok d ∧ d.lines = [[300, 12]] ∧ report = ⟨1, 0, 1, 1⟩ := by
  obtain ⟨hrefused, haccepted⟩ := remapClass_changes_lines_only (.ofPairs [(11, 300)]) twoLines
  cases hremap : remapClass (.ofPairs [(11, 300)]) twoLines with
  | error e =>
    have hparse := (hrefused e).1 hremap
    rw [parse_twoLines] at hparse
    contradiction
  | ok result =>
    obtain ⟨out, report⟩ := result
    obtain ⟨c, d, hparse, hread, -, -, -, -, -, -, hlines, hmethods, hexact, hceiling, hunchanged,
      -, -⟩ := haccepted out report hremap
    cases Except.ok.inj (parse_twoLines.symm.trans hparse)
    refine ⟨out, report, d, rfl, hread, hlines.trans (by decide), ?_⟩
    obtain ⟨methods, exact, ceiling, unchanged⟩ := report
    cases hmethods
    cases hexact
    cases hceiling
    cases hunchanged
    decide

end Reline
