/-
  Reline.Proofs.ClassFile.Editing

  Edits of a class file, and what is written after them.

  An edit sets the line of an entry, or its instruction offset, or both. A run
  of edits leaves the bytes, the names and the places as they are. Main
  statement (`toBytes_edits`): what is written after any run of edits has the
  lines that were set and nothing else that is new. Instruction offsets that
  were set are not written.
-/

import Reline.Proofs.ClassFile.Relining

namespace Reline.ClassFile

/-! ## Edits -/

/-- An edit of the `index`-th entry, counted over all methods. -/
structure Edit where
  index : Nat
  line : Option UInt16
  startPc : Option UInt16

/-- The entry with the fields that the edit sets. -/
def Edit.apply (edit : Edit) (e : LineEntry) : LineEntry :=
  { e with line := edit.line.getD e.line, startPc := edit.startPc.getD e.startPc }

/-- The class file with one entry edited. -/
def edit (c : ClassFile) (edit : Edit) : ClassFile :=
  { c with methods := modifyNth edit.apply edit.index c.methods }

/-- The class file after a run of edits. -/
def run (c : ClassFile) (edits : List Edit) : ClassFile :=
  edits.foldl edit c

theorem setEntry_eq_edit (c : ClassFile) (index : Nat) (line : UInt16) (startPc : Option UInt16) :
    c.setEntry index line startPc = c.edit ⟨index, some line, startPc⟩ := rfl

/-- Changing one entry of two stretches changes one of the first stretch or of the second. -/
theorem modify_append (f : LineEntry → LineEntry) (index : Nat) (front back : List LineEntry) :
    (front ++ back).modify index f
      = if index < front.length then front.modify index f ++ back
        else front ++ back.modify (index - front.length) f := by
  induction front generalizing index with
  | nil => rfl
  | cons e front ih =>
    cases index with
    | zero =>
      rw [List.length_cons, if_pos (Nat.zero_lt_succ _)]
      rfl
    | succ index =>
      -- the first element is passed by, and the index counts from the next one on
      rw [List.cons_append, List.modify_succ_cons, ih, List.length_cons, List.modify_succ_cons,
        Nat.add_sub_add_right]
      simp only [Nat.add_lt_add_iff_right]
      split <;> rfl

/-- The entry that is changed is the one with the index in the list of all entries. -/
theorem flatMap_entries_modifyNth (f : LineEntry → LineEntry) (index : Nat)
    (methods : List MethodLines) :
    (modifyNth f index methods).flatMap MethodLines.entries
      = (methods.flatMap MethodLines.entries).modify index f := by
  induction methods generalizing index with
  | nil => rw [modifyNth, List.flatMap_nil, List.modify_nil]
  | cons m methods ih =>
    rw [modifyNth, List.flatMap_cons, modify_append]
    split
    · rw [List.flatMap_cons]
    · rw [List.flatMap_cons, ih]

theorem entries_edit (c : ClassFile) (edit : Edit) :
    (c.edit edit).entries = c.entries.modify edit.index edit.apply :=
  flatMap_entries_modifyNth edit.apply edit.index c.methods

/-- What an edit leaves alone in each entry, it leaves alone in each method. -/
theorem map_modifyNth {β : Type} {f : LineEntry → LineEntry} {g : MethodLines → β}
    (hf : ∀ (m : MethodLines) (i : Nat), g { m with entries := m.entries.modify i f } = g m)
    (index : Nat) (methods : List MethodLines) :
    (modifyNth f index methods).map g = methods.map g := by
  induction methods generalizing index with
  | nil => rfl
  | cons m methods ih =>
    rw [modifyNth]
    split
    · rw [List.map_cons, List.map_cons, hf]
    · rw [List.map_cons, List.map_cons, ih]

/-! ## Runs -/

theorem map_offset_modify (edit : Edit) (i : Nat) (entries : List LineEntry) :
    (entries.modify i edit.apply).map LineEntry.offset = entries.map LineEntry.offset := by
  induction entries generalizing i with
  | nil => rw [List.modify_nil]
  | cons e entries ih =>
    cases i with
    | zero => rfl
    | succ i => rw [List.modify_succ_cons, List.map_cons, List.map_cons, ih]

/-- One edit touches lines and instruction offsets only. -/
theorem edited_edit (c : ClassFile) (edit : Edit) : c.Edited (c.edit edit) where
  bytes := rfl
  names := map_modifyNth (fun _ _ => rfl) edit.index c.methods
  descriptors := map_modifyNth (fun _ _ => rfl) edit.index c.methods
  offsets := by
    refine map_modifyNth (fun m i => ?_) edit.index c.methods
    exact map_offset_modify edit i m.entries

/-- So does a run of edits. -/
theorem edited_run (c : ClassFile) (edits : List Edit) : c.Edited (c.run edits) := by
  induction edits generalizing c with
  | nil => exact Edited.refl c
  | cons edit edits ih => exact (edited_edit c edit).trans (ih (c.edit edit))

/-! ## Writing -/

/-- Unedited class files are written as they were read. After any run of edits, the bytes are as
many, they differ in nothing but lines that were changed, and they are read as the same methods
with the lines that were set and the instruction offsets that were read first. Only the lines
decide what is written. -/
theorem toBytes_edits {bytes : Bytes} {c : ClassFile} (hparse : parse bytes = .ok c) :
    c.toBytes = bytes ∧ ∀ edits : List Edit,
      (c.run edits).toBytes.length = bytes.length
      ∧ (∀ i : Nat, (c.run edits).toBytes[i]? ≠ bytes[i]? →
        ∃ (k : Nat) (e e' : LineEntry), c.entries[k]? = some e ∧ (c.run edits).entries[k]? = some e'
          ∧ e'.line ≠ e.line ∧ (i = e.offset ∨ i = e.offset + 1))
      ∧ (∃ d, parse (c.run edits).toBytes = .ok d ∧ d.names = c.names
        ∧ d.descriptors = c.descriptors ∧ d.counts = c.counts ∧ d.lines = (c.run edits).lines
        ∧ d.startPcs = c.startPcs ∧ d.toBytes = (c.run edits).toBytes)
      ∧ ∀ edits' : List Edit, (c.run edits').lines = (c.run edits).lines →
        (c.run edits').toBytes = (c.run edits).toBytes := by
  refine ⟨toBytes_of_parse hparse, fun edits => ?_⟩
  have hedited := edited_run c edits
  obtain ⟨d, hread, -, hnames, hdescriptors, hoffsets, hstartPcs, hlines⟩ :=
    exists_parse_toBytes hparse hedited
  refine ⟨length_toBytes hparse hedited,
    fun i hi => exists_entry_of_getElem?_toBytes_ne hparse hedited hi,
    ⟨d, hread, hnames, hdescriptors, counts_eq_of_offsets hoffsets, hlines, hstartPcs,
      toBytes_of_parse hread⟩,
    fun edits' hlines => toBytes_congr hedited (edited_run c edits') hlines⟩

/-- Setting the first line and both instruction offsets of a class file writes the line only. -/
theorem toBytes_edits_twoLines :
    ∃ d, parse (run ⟨twoLines, [⟨"f", "()V", [⟨0, 10, 94⟩, ⟨3, 12, 98⟩]⟩]⟩
        [⟨0, some 300, some 7⟩, ⟨1, none, some 9⟩]).toBytes = .ok d
      ∧ d.lines = [[300, 12]] ∧ d.startPcs = [[0, 3]] := by
  obtain ⟨-, hruns⟩ := toBytes_edits parse_twoLines
  obtain ⟨-, -, ⟨d, hread, -, -, -, hlines, hstartPcs, -⟩, -⟩ :=
    hruns [⟨0, some 300, some 7⟩, ⟨1, none, some 9⟩]
  exact ⟨d, hread, hlines, hstartPcs⟩

end Reline.ClassFile
