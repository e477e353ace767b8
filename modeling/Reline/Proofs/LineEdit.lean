/-
  Reline.Proofs.LineEdit

  Bytes that came of others by giving a class file other lines.

  Bytes that are no class file have no line edit but themselves. A line edit of a
  class file has as many bytes, it is read as the same methods with the same
  places for their lines, and all its other bytes are the same. So line edits of
  line edits are line edits, and remapping is one.
-/

import Reline.Proofs.Remapping

namespace Reline

open ClassFile

/-- Whether bytes differ from others in nothing but the lines of a class file. -/
structure LineEdit (old new : Bytes) : Prop where
  length : new.length = old.length
  refused : ∀ e, parse old = .error e → new = old
  accepted : ∀ c, parse old = .ok c → ∃ d, parse new = .ok d ∧ d.names = c.names
    ∧ d.descriptors = c.descriptors ∧ d.startPcs = c.startPcs ∧ d.offsets = c.offsets
    ∧ ∀ i : Nat, (∀ e ∈ c.entries, i ≠ e.offset ∧ i ≠ e.offset + 1) → new[i]? = old[i]?

namespace LineEdit

variable {old new newer : Bytes}

theorem refl (bytes : Bytes) : LineEdit bytes bytes where
  length := rfl
  refused _ _ := rfl
  accepted c hparse := ⟨c, hparse, rfl, rfl, rfl, rfl, fun _ _ => rfl⟩

/-- The places of the lines are where they were, so two edits touch the same places. -/
theorem trans (h : LineEdit old new) (h' : LineEdit new newer) : LineEdit old newer where
  length := h'.length.trans h.length
  refused e hparse := by
    have hsame := h.refused e hparse
    subst hsame
    exact h'.refused e hparse
  accepted c hparse := by
    obtain ⟨d, hread, hnames, hdescriptors, hstartPcs, hoffsets, hbytes⟩ := h.accepted c hparse
    obtain ⟨d', hread', hnames', hdescriptors', hstartPcs', hoffsets', hbytes'⟩ :=
      h'.accepted d hread
    refine ⟨d', hread', hnames'.trans hnames, hdescriptors'.trans hdescriptors,
      hstartPcs'.trans hstartPcs, hoffsets'.trans hoffsets, fun i hi => ?_⟩
    have hplaces : d.entries.map LineEntry.offset = c.entries.map LineEntry.offset := by
      rw [← flatten_map_entries, ← flatten_map_entries]
      exact congrArg List.flatten hoffsets
    have hi' : ∀ e ∈ d.entries, i ≠ e.offset ∧ i ≠ e.offset + 1 := by
      intro e he
      have hmem : e.offset ∈ c.entries.map LineEntry.offset :=
        hplaces ▸ List.mem_map_of_mem he
      obtain ⟨e', he', heq⟩ := List.mem_map.1 hmem
      rw [← heq]
      exact hi e' he'
    exact (hbytes' i hi').trans (hbytes i hi)

/-- Remapping a class file edits its lines. -/
theorem of_remapClass {m : LineMapping} {report : RemapReport}
    (h : remapClass m old = .ok (new, report)) : LineEdit old new := by
  obtain ⟨c, hparse, rfl, -⟩ := exists_of_remapClass_eq_ok m h
  have hedited := edited_remap m c
  obtain ⟨d, hread, -, hnames, hdescriptors, hoffsets, hstartPcs, -⟩ :=
    exists_parse_toBytes hparse hedited
  refine ⟨length_toBytes hparse hedited, fun e herror => ?_, fun c' hparse' => ?_⟩
  · rw [hparse] at herror
    contradiction
  · cases hparse.symm.trans hparse'
    refine ⟨d, hread, hnames, hdescriptors, hstartPcs, hoffsets, fun i hi => ?_⟩
    by_contra hne
    obtain ⟨k, e, -, he, -, -, hplace⟩ := exists_entry_of_getElem?_toBytes_ne hparse hedited hne
    obtain ⟨hfirst, hsecond⟩ := hi e (List.mem_of_getElem? he)
    exact hplace.elim hfirst hsecond

end LineEdit

end Reline
