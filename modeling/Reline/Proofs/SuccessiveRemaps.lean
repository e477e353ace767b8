/-
  Reline.Proofs.SuccessiveRemaps

  Remapping what was remapped.

  A remapped class file is read as the class file that was written: the same
  methods with the same places of their lines, whatever lines were written there.
  So a second mapping finds the lines that the first one gave, and both together
  write what one mapping writes that does the same to the lines of the class
  file. A mapping whose pairs are one-to-one is undone by the swapped pairs.

  Main statement: `remapClass_remapClass`.
-/

import Reline.Proofs.LineMapping
import Reline.Proofs.Remapping

namespace Reline

open ClassFile

variable {bytes once out : Bytes} {c : ClassFile} {f g : UInt16 → UInt16}

/-! ## Bytes with other lines -/

/-- The entry with its line sent through a function. -/
def LineEntry.reline (f : UInt16 → UInt16) (e : LineEntry) : LineEntry :=
  { e with line := f e.line }

/-- Whether bytes come of others by sending the lines of entries through a function, each where the
entry has its line. -/
structure Relined (f : UInt16 → UInt16) (entries : List LineEntry) (bytes out : Bytes) : Prop where
  length : out.length = bytes.length
  line : ∀ e ∈ entries, (out.drop e.offset).take 2 = Piece.word (f e.line)
  rest : ∀ i : Nat, (∀ e ∈ entries, i ≠ e.offset ∧ i ≠ e.offset + 1) → out[i]? = bytes[i]?

namespace Relined

variable {entries : List LineEntry}

/-- What is written depends on nothing but what becomes of the lines. -/
theorem eq_of_lines {out' : Bytes} (h : Relined f entries bytes out)
    (h' : Relined g entries bytes out') (hlines : ∀ e ∈ entries, f e.line = g e.line) :
    out = out' := by
  apply List.ext_getElem?
  intro i
  by_cases hi : ∀ e ∈ entries, i ≠ e.offset ∧ i ≠ e.offset + 1
  · rw [h.rest i hi, h'.rest i hi]
  · push Not at hi
    obtain ⟨e, he, hplace⟩ := hi
    -- both bytes of the line are those of one word
    have hword : (out.drop e.offset).take 2 = (out'.drop e.offset).take 2 := by
      rw [h.line e he, h'.line e he, hlines e he]
    have hfirst := congrArg (fun list => list[0]?) hword
    have hsecond := congrArg (fun list => list[1]?) hword
    simp only [List.getElem?_take, List.getElem?_drop, Nat.add_zero] at hfirst hsecond
    by_cases hoffset : i = e.offset
    · rw [hoffset]
      exact hfirst
    · rw [hplace hoffset]
      exact hsecond

/-- Lines that were sent through a function can be sent through another one. -/
theorem trans (h : Relined f entries bytes once)
    (h' : Relined g (entries.map (LineEntry.reline f)) once out) :
    Relined (g ∘ f) entries bytes out where
  length := h'.length.trans h.length
  line e he := h'.line (e.reline f) (List.mem_map_of_mem he)
  rest i hi := by
    refine (h'.rest i fun e' he' => ?_).trans (h.rest i hi)
    obtain ⟨e, he, rfl⟩ := List.mem_map.1 he'
    exact hi e he

/-- A class file has its own lines. -/
theorem refl_of_parse (hparse : parse bytes = .ok c) : Relined id c.entries bytes bytes where
  length := rfl
  line _ he := take_drop_offset hparse he
  rest _ _ := rfl

end Relined

/-! ## Reading what was remapped -/

namespace ClassFile

variable (m : LineMapping)

theorem entries_remap (c : ClassFile) :
    (c.remap m).entries = c.entries.map (LineEntry.reline m.mapLine) := by
  rw [entries, entries, remap, mapLines, mapEntries, List.flatMap_map, List.map_flatMap]
  rfl

theorem startPcs_remap (c : ClassFile) : (c.remap m).startPcs = c.startPcs := by
  rw [startPcs, remap, mapLines, mapEntries, List.map_map]
  exact List.map_congr_left fun method _ => List.map_map

/-- Entries are known by their places, instruction offsets and lines. -/
theorem eq_of_map_fields {entries entries' : List LineEntry}
    (hoffsets : entries.map LineEntry.offset = entries'.map LineEntry.offset)
    (hstartPcs : entries.map LineEntry.startPc = entries'.map LineEntry.startPc)
    (hlines : entries.map LineEntry.line = entries'.map LineEntry.line) : entries = entries' := by
  induction entries generalizing entries' with
  | nil =>
    rw [List.map_nil] at hoffsets
    exact (List.map_eq_nil_iff.1 hoffsets.symm).symm
  | cons e entries ih =>
    cases entries' with
    | nil => cases hoffsets
    | cons e' entries' =>
      rw [List.map_cons, List.map_cons, List.cons.injEq] at hoffsets hstartPcs hlines
      have hentry : e = e' := by
        cases e
        cases e'
        cases hoffsets.1
        cases hstartPcs.1
        cases hlines.1
        rfl
      rw [hentry, ih hoffsets.2 hstartPcs.2 hlines.2]

/-- Methods are known by their names, descriptors and the fields of their entries. -/
theorem methods_eq_of_fields {c d : ClassFile} (hnames : d.names = c.names)
    (hdescriptors : d.descriptors = c.descriptors) (hoffsets : d.offsets = c.offsets)
    (hstartPcs : d.startPcs = c.startPcs) (hlines : d.lines = c.lines) :
    d.methods = c.methods := by
  unfold names descriptors offsets startPcs lines at *
  generalize d.methods = methods at *
  generalize c.methods = methods' at *
  induction methods generalizing methods' with
  | nil =>
    rw [List.map_nil] at hnames
    exact (List.map_eq_nil_iff.1 hnames.symm).symm
  | cons method methods ih =>
    cases methods' with
    | nil => cases hnames
    | cons method' methods' =>
      rw [List.map_cons, List.map_cons, List.cons.injEq] at hnames hdescriptors
      rw [List.map_cons, List.map_cons, List.cons.injEq] at hoffsets hstartPcs hlines
      have hmethod : method = method' := by
        obtain ⟨name, descriptor, entries⟩ := method
        obtain ⟨name', descriptor', entries'⟩ := method'
        cases hnames.1
        cases hdescriptors.1
        cases eq_of_map_fields hoffsets.1 hstartPcs.1 hlines.1
        rfl
      rw [hmethod, ih methods' hnames.2 hdescriptors.2 hoffsets.2 hstartPcs.2 hlines.2]

/-- A remapped class file is read as it was written. -/
theorem parse_remap (hparse : parse bytes = .ok c) :
    parse (c.remap m).toBytes = .ok ⟨(c.remap m).toBytes, (c.remap m).methods⟩ := by
  have hedited := edited_remap m c
  obtain ⟨d, hread, hbytes, hnames, hdescriptors, hoffsets, hstartPcs, hlines⟩ :=
    exists_parse_toBytes hparse hedited
  have hmethods : d.methods = (c.remap m).methods :=
    methods_eq_of_fields (hnames.trans hedited.names.symm)
      (hdescriptors.trans hedited.descriptors.symm) (hoffsets.trans hedited.offsets.symm)
      (hstartPcs.trans (startPcs_remap m c).symm) hlines
  rw [hread, ← hbytes, ← hmethods]

/-- Remapping sends each line through the mapping, where it stands. -/
theorem relined_remap (hparse : parse bytes = .ok c) :
    Relined m.mapLine c.entries bytes (c.remap m).toBytes where
  length := length_toBytes hparse (edited_remap m c)
  line e he := by
    have hmem : e.reline m.mapLine ∈ (c.remap m).entries := by
      rw [entries_remap]
      exact List.mem_map_of_mem he
    exact take_drop_offset (parse_remap m hparse) hmem
  rest i hi := by
    by_contra hne
    obtain ⟨k, e, -, he, -, -, hplace⟩ :=
      exists_entry_of_getElem?_toBytes_ne hparse (edited_remap m c) hne
    obtain ⟨hfirst, hsecond⟩ := hi e (List.mem_of_getElem? he)
    exact hplace.elim hfirst hsecond

end ClassFile

/-! ## Two mappings in turn -/

theorem remapClass_of_parse (m : LineMapping) (hparse : parse bytes = .ok c) :
    remapClass m bytes = .ok ((c.remap m).toBytes, c.remapReport m) := by
  rw [remapClass, hparse]
  rfl

/-- The second of two mappings finds the lines that the first one gave. -/
theorem remapReport_remap (m₁ m₂ : LineMapping) (c : ClassFile) (bytes : Bytes) :
    (⟨bytes, (c.remap m₁).methods⟩ : ClassFile).remapReport m₂
      = ⟨c.methods.length,
        c.entries.countP fun e => (m₂.resolve (m₁.mapLine e.line)).isExact,
        c.entries.countP fun e => (m₂.resolve (m₁.mapLine e.line)).isCeiling,
        c.entries.countP fun e => (m₂.resolve (m₁.mapLine e.line)).isUnchanged⟩ := by
  have hentries : (⟨bytes, (c.remap m₁).methods⟩ : ClassFile).entries
      = c.entries.map (LineEntry.reline m₁.mapLine) := entries_remap m₁ c
  have hmethods : (c.remap m₁).methods.length = c.methods.length :=
    List.length_map _
  rw [remapReport_eq, hentries, hmethods, List.countP_map, List.countP_map, List.countP_map]
  rfl

/-- Two remaps in turn send each line through both mappings. -/
theorem exists_remapClass_remapClass (m₁ m₂ : LineMapping) (hparse : parse bytes = .ok c) :
    ∃ once out report₁, remapClass m₁ bytes = .ok (once, report₁)
      ∧ remapClass m₂ once = .ok (out, ⟨c.methods.length,
        c.entries.countP fun e => (m₂.resolve (m₁.mapLine e.line)).isExact,
        c.entries.countP fun e => (m₂.resolve (m₁.mapLine e.line)).isCeiling,
        c.entries.countP fun e => (m₂.resolve (m₁.mapLine e.line)).isUnchanged⟩)
      ∧ Relined (m₂.mapLine ∘ m₁.mapLine) c.entries bytes out := by
  have hread := parse_remap m₁ hparse
  have hentries : (⟨(c.remap m₁).toBytes, (c.remap m₁).methods⟩ : ClassFile).entries
      = c.entries.map (LineEntry.reline m₁.mapLine) := entries_remap m₁ c
  have hsecond := relined_remap m₂ hread
  rw [hentries] at hsecond
  refine ⟨_, _, _, remapClass_of_parse m₁ hparse, ?_, (relined_remap m₁ hparse).trans hsecond⟩
  rw [remapClass_of_parse m₂ hread, remapReport_remap]

/-- Pairs of which no two have one line or one target are undone by the swapped pairs. -/
theorem mapLine_swap {pairs : List (UInt16 × UInt16)} (hlines : (pairs.map Prod.fst).Nodup)
    (htargets : (pairs.map Prod.snd).Nodup) {line : UInt16} (hline : line ∈ pairs.map Prod.fst) :
    (LineMapping.ofPairs (pairs.map Prod.swap)).mapLine ((LineMapping.ofPairs pairs).mapLine line)
      = line := by
  obtain ⟨⟨line, target⟩, hmem, rfl⟩ := List.mem_map.1 hline
  have hswapped : ((pairs.map Prod.swap).map Prod.fst).Nodup := by
    rw [List.map_map]
    exact htargets
  have hback : (target, line) ∈ pairs.map Prod.swap := List.mem_map.2 ⟨_, hmem, rfl⟩
  rw [LineMapping.mapLine_ofPairs (LineMapping.lastTarget_of_mem hlines hmem),
    LineMapping.mapLine_ofPairs (LineMapping.lastTarget_of_mem hswapped hback)]

/-- What is remapped twice has each line sent through both mappings, and all other bytes as they
were; the second report counts how the second mapping resolves what the first one gave. A mapping
that does to the lines of the class file what both do gives the same bytes. Pairs of which no two
have one line or one target, and which have all lines of the class file, are undone by the swapped
pairs. -/
theorem remapClass_remapClass (hparse : parse bytes = .ok c) :
    (∀ m₁ m₂ : LineMapping, ∃ once out report₁, remapClass m₁ bytes = .ok (once, report₁)
      ∧ remapClass m₂ once = .ok (out, ⟨c.methods.length,
        c.entries.countP fun e => (m₂.resolve (m₁.mapLine e.line)).isExact,
        c.entries.countP fun e => (m₂.resolve (m₁.mapLine e.line)).isCeiling,
        c.entries.countP fun e => (m₂.resolve (m₁.mapLine e.line)).isUnchanged⟩)
      ∧ Relined (m₂.mapLine ∘ m₁.mapLine) c.entries bytes out
      ∧ ∀ m : LineMapping,
        (∀ e ∈ c.entries, m.mapLine e.line = m₂.mapLine (m₁.mapLine e.line)) →
          ∃ report, remapClass m bytes = .ok (out, report))
      ∧ ∀ pairs : List (UInt16 × UInt16), (pairs.map Prod.fst).Nodup →
        (pairs.map Prod.snd).Nodup → (∀ e ∈ c.entries, e.line ∈ pairs.map Prod.fst) →
          ∃ once report report', remapClass (.ofPairs pairs) bytes = .ok (once, report)
            ∧ remapClass (.ofPairs (pairs.map Prod.swap)) once = .ok (bytes, report') := by
  refine ⟨fun m₁ m₂ => ?_, fun pairs hlines htargets hlisted => ?_⟩
  · obtain ⟨once, out, report₁, hfirst, hsecond, hrelined⟩ :=
      exists_remapClass_remapClass m₁ m₂ hparse
    refine ⟨once, out, report₁, hfirst, hsecond, hrelined, fun m hm => ?_⟩
    have hsame := (relined_remap m hparse).eq_of_lines hrelined hm
    exact ⟨_, hsame ▸ remapClass_of_parse m hparse⟩
  · obtain ⟨once, out, report₁, hfirst, hsecond, hrelined⟩ :=
      exists_remapClass_remapClass (.ofPairs pairs) (.ofPairs (pairs.map Prod.swap)) hparse
    have hrestored : out = bytes := by
      refine hrelined.eq_of_lines (.refl_of_parse hparse) fun e he => ?_
      exact mapLine_swap hlines htargets (hlisted e he)
    exact ⟨once, report₁, _, hfirst, hrestored ▸ hsecond⟩

/-- Two lines are moved to each other's place and back. -/
theorem remapClass_remapClass_twoLines :
    ∃ once report report', remapClass (.ofPairs [(12, 10), (10, 12)]) twoLines = .ok (once, report)
      ∧ remapClass (.ofPairs [(10, 12), (12, 10)]) once = .ok (twoLines, report') := by
  obtain ⟨-, hswap⟩ := remapClass_remapClass parse_twoLines
  exact hswap [(12, 10), (10, 12)] (by decide) (by decide) (by decide)

end Reline
