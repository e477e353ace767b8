/-
  Reline.Proofs.ClassFile.Acceptance

  Which bytes are a class file, and what is found in them.

  The reader keeps the line entries of a method with the places of their lines.
  Here they are compared with the tree of the layout: they are the pairs of all
  line number tables of the method, in order, and at the place of each entry
  stand the two bytes of its line. Main statement
  (`parse_accepts_exactly_layouts`): bytes are read exactly if they are those of
  a layout, and then nothing but that is found, whichever layout spells them.
-/

import Reline.Proofs.ClassFile.Grammar

namespace Reline

/-- The pair that an entry stands for. -/
def LineEntry.pair (e : LineEntry) : UInt16 × UInt16 :=
  (e.startPc, e.line)

namespace ClassFile

variable {pool : Pool}

/-! ## Pairs -/

/-- The pair of a piece that is an entry. -/
def Piece.pair? : Piece → Option (UInt16 × UInt16)
  | plain _ => none
  | entry startPc line => some (startPc, line)

theorem map_pair_entries (pieces : List Piece) (position : Nat) :
    (Piece.entries position pieces).map LineEntry.pair = pieces.filterMap Piece.pair? := by
  induction pieces generalizing position with
  | nil => rfl
  | cons piece pieces ih =>
    cases piece with
    | plain bytes => exact ih _
    | entry startPc line =>
      rw [Piece.entries_entry, List.map_cons, ih]
      rfl

/-- The pairs of counted items are those of the items. -/
theorem filterMap_pair?_counted {ι : Type} (spell : ι → List Piece) (counted : Counted ι) :
    (counted.pieces spell).filterMap Piece.pair?
      = counted.items.flatMap fun item => (spell item).filterMap Piece.pair? :=
  List.filterMap_flatMap

theorem filterMap_pair?_bodyAttribute (a : BodyAttribute pool) :
    a.pieces.filterMap Piece.pair? = a.pairs := by
  cases a with
  | table name named entries =>
    have hitems := filterMap_pair?_counted entryPieces entries
    exact hitems.trans (List.flatMap_singleton' entries.items)
  | other name named contents => rfl

theorem filterMap_pair?_methodAttribute (a : MethodAttribute pool) :
    a.pieces.filterMap Piece.pair? = a.pairs := by
  cases a with
  | code name named body length_lt =>
    have hattributes := filterMap_pair?_counted BodyAttribute.pieces body.attributes
    simp only [filterMap_pair?_bodyAttribute] at hattributes
    exact hattributes
  | other name named contents => rfl

/-- The entries of a method are the pairs of its tables. -/
theorem map_pair_lines (method : Method pool) (position : Nat) :
    (method.lines position).entries.map LineEntry.pair = method.pairs := by
  have hattributes := filterMap_pair?_counted MethodAttribute.pieces method.attributes
  simp only [filterMap_pair?_methodAttribute] at hattributes
  exact (map_pair_entries method.pieces position).trans hattributes

/-! ## Places -/

theorem entries_linesFrom (position : Nat) (methods : List (Method pool)) :
    (Method.linesFrom position methods).flatMap MethodLines.entries
      = Piece.entries position (methods.flatMap Method.pieces) := by
  induction methods generalizing position with
  | nil => rfl
  | cons method methods ih =>
    rw [Method.linesFrom, List.flatMap_cons, ih, List.flatMap_cons, Piece.entries_append]
    rfl

/-- The entries of all methods are those of all pieces. -/
theorem entries_methodLines (layout : Layout) :
    layout.methodLines.flatMap MethodLines.entries = Piece.entries 0 layout.pieces := by
  rw [Layout.methodLines, entries_linesFrom, Layout.pieces, List.cons_append, Piece.entries_plain,
    Piece.entries_append, Counted.pieces, Piece.entries_plain, Piece.length_word, Nat.zero_add,
    Piece.entries_plain, Piece.entries_nil, List.append_nil]

/-- Every entry that is found stands in the file, where it was found. -/
theorem take_drop_offset {bytes : Bytes} {c : ClassFile} (hparse : parse bytes = .ok c)
    {e : LineEntry} (he : e ∈ c.entries) :
    (bytes.drop e.offset).take 2 = Piece.word e.line := by
  obtain ⟨-, layout, hspell, hmethods⟩ := parse_eq_ok_iff.1 hparse
  rw [entries, ← hmethods, entries_methodLines] at he
  -- the pieces of the layout spell the bytes, and the entry is one of them
  obtain ⟨front, back, hsplit, hoffset⟩ := Piece.exists_encode_of_mem_entries he
  have hlen : (front ++ Piece.word e.startPc).length = e.offset := by
    rw [List.length_append, Piece.length_word, hoffset, Nat.zero_add]
  rw [← hspell, Layout.encode, hsplit, List.append_assoc _ (Piece.word e.line), ← hlen,
    Piece.take_drop_append_word]

/-! ## Acceptance -/

/-- What a layout says about its methods: name, descriptor and pairs. -/
def Layout.found (layout : Layout) : List (String × String × List (UInt16 × UInt16)) :=
  layout.methods.items.map fun method => (Text.Utf8.decodeReplacing method.name.text,
    Text.Utf8.decodeReplacing method.descriptor.text, method.pairs)

/-- What was found about the methods of a class file: name, descriptor and pairs. -/
def found (c : ClassFile) : List (String × String × List (UInt16 × UInt16)) :=
  c.methods.map fun m => (m.name, m.descriptor, m.entries.map LineEntry.pair)

theorem map_linesFrom_found (methods : List (Method pool)) (position : Nat) :
    (Method.linesFrom position methods).map
        (fun m => (m.name, m.descriptor, m.entries.map LineEntry.pair))
      = methods.map fun method => (Text.Utf8.decodeReplacing method.name.text,
        Text.Utf8.decodeReplacing method.descriptor.text, method.pairs) := by
  induction methods generalizing position with
  | nil => rfl
  | cons method methods ih =>
    rw [Method.linesFrom, List.map_cons, ih, map_pair_lines, List.map_cons]
    rfl

/-- Bytes are read as a class file exactly if some layout spells them. Any layout that does says
what is found: the same methods with the same names and descriptors, and all pairs of their line
number tables in order. Each entry is found where its line stands. -/
theorem parse_accepts_exactly_layouts (bytes : Bytes) :
    ((∃ c, parse bytes = .ok c) ↔ ∃ layout : Layout, layout.encode = bytes)
      ∧ ∀ (c : ClassFile) (layout : Layout), parse bytes = .ok c → layout.encode = bytes →
        c.bytes = bytes ∧ c.found = layout.found
          ∧ ∀ e ∈ c.entries, (bytes.drop e.offset).take 2 = Piece.word e.line := by
  refine ⟨⟨?_, ?_⟩, ?_⟩
  · rintro ⟨c, hparse⟩
    obtain ⟨-, layout, hspell, -⟩ := parse_eq_ok_iff.1 hparse
    exact ⟨layout, hspell⟩
  · rintro ⟨layout, hspell⟩
    exact ⟨⟨bytes, layout.methodLines⟩, parse_eq_ok_iff.2 ⟨rfl, layout, hspell, rfl⟩⟩
  · intro c layout hparse hspell
    -- the reader gives one answer, so it finds what this layout says and not another
    have hread : parse bytes = .ok ⟨bytes, layout.methodLines⟩ :=
      parse_eq_ok_iff.2 ⟨rfl, layout, hspell, rfl⟩
    have hc : c = ⟨bytes, layout.methodLines⟩ := Except.ok.inj (hparse.symm.trans hread)
    refine ⟨by rw [hc], ?_, fun e he => take_drop_offset hparse he⟩
    rw [hc]
    exact map_linesFrom_found layout.methods.items _

/-- A class file with one method, the lines of which are 10 and 12. -/
def twoLines : Bytes :=
  [0xCA, 0xFE, 0xBA, 0xBE, 0, 0, 0, 52, 0, 5, 1, 0, 1, 102, 1, 0, 3, 40, 41, 86, 1, 0, 4, 67, 111,
    100, 101, 1, 0, 15, 76, 105, 110, 101, 78, 117, 109, 98, 101, 114, 84, 97, 98, 108, 101, 0, 33,
    0, 0, 0, 0, 0, 0, 0, 0, 0, 1, 0, 1, 0, 1, 0, 2, 0, 1, 0, 3, 0, 0, 0, 29, 0, 0, 0, 0, 0, 0, 0, 1,
    177, 0, 0, 0, 1, 0, 4, 0, 0, 0, 10, 0, 2, 0, 0, 0, 10, 0, 3, 0, 12, 0, 0]

theorem parse_twoLines :
    parse twoLines = .ok ⟨twoLines, [⟨"f", "()V", [⟨0, 10, 94⟩, ⟨3, 12, 98⟩]⟩]⟩ := by
  decide +kernel

theorem exists_layout_twoLines :
    ∃ layout : Layout, layout.encode = twoLines
      ∧ layout.found = [("f", "()V", [(0, 10), (3, 12)])] := by
  obtain ⟨hiff, hfound⟩ := parse_accepts_exactly_layouts twoLines
  obtain ⟨layout, hspell⟩ := hiff.1 ⟨_, parse_twoLines⟩
  exact ⟨layout, hspell, (hfound _ layout parse_twoLines hspell).2.1.symm⟩

end ClassFile

end Reline
