/-
  Reline.Proofs.ClassFile.Relining

  Giving other lines to a class file.

  No part of the format depends on the value of a line: a layout stays one when
  its line entries get other lines, and it keeps its names, its counts and the
  places of its entries. Writing the entries of a class file over its bytes
  gives the bytes of that layout. So a class file whose lines were edited is
  written to bytes that are read as the same class file with the new lines.
-/

import Reline.Proofs.ClassFile.Acceptance

namespace Reline.ClassFile

open Piece (Alike)

variable {pool : Pool}

/-! ## Layouts with other lines -/

theorem forall₂_alike_plain {bytes : Bytes} {pieces : List Piece}
    (h : List.Forall₂ Alike [.plain bytes] pieces) : pieces = [.plain bytes] := by
  cases h with
  | cons hplain hnil =>
    cases hplain
    cases hnil
    rfl

/-- What is alike to a sequence splits where the sequence does. -/
theorem exists_append_of_alike {front back pieces : List Piece}
    (h : List.Forall₂ Alike (front ++ back) pieces) :
    ∃ front' back', pieces = front' ++ back' ∧ List.Forall₂ Alike front front'
      ∧ List.Forall₂ Alike back back' := by
  have htake := List.forall₂_take front.length h
  have hdrop := List.forall₂_drop front.length h
  rw [List.take_left] at htake
  rw [List.drop_left] at hdrop
  exact ⟨_, _, (List.take_append_drop front.length pieces).symm, htake, hdrop⟩

/-- Pieces that are alike to those of several items are those of items, if this holds for each. -/
theorem exists_items_of_alike {ι : Type} {spell : ι → List Piece} {same : ι → ι → Prop}
    (hitem : ∀ item pieces, List.Forall₂ Alike (spell item) pieces
      → ∃ item', spell item' = pieces ∧ same item item')
    {items : List ι} {pieces : List Piece}
    (h : List.Forall₂ Alike (items.flatMap spell) pieces) :
    ∃ items', items'.flatMap spell = pieces ∧ List.Forall₂ same items items' := by
  induction items generalizing pieces with
  | nil =>
    rw [List.flatMap_nil, List.forall₂_nil_left_iff] at h
    exact ⟨[], h.symm, .nil⟩
  | cons item items ih =>
    rw [List.flatMap_cons] at h
    obtain ⟨_, _, rfl, hfront, hback⟩ := exists_append_of_alike h
    obtain ⟨item', rfl, hsame⟩ := hitem item _ hfront
    obtain ⟨items', rfl, hsames⟩ := ih hback
    exact ⟨item' :: items', rfl, .cons hsame hsames⟩

/-- The same for items with their number in front. -/
theorem exists_counted_same_of_alike {ι : Type} {spell : ι → List Piece} {same : ι → ι → Prop}
    (hitem : ∀ item pieces, List.Forall₂ Alike (spell item) pieces
      → ∃ item', spell item' = pieces ∧ same item item')
    {counted : Counted ι} {pieces : List Piece}
    (h : List.Forall₂ Alike (counted.pieces spell) pieces) :
    ∃ counted' : Counted ι, counted'.pieces spell = pieces
      ∧ List.Forall₂ same counted.items counted'.items := by
  cases h with
  | cons hcount hitems =>
    cases hcount with
    | plain =>
      obtain ⟨items', rfl, hsames⟩ := exists_items_of_alike hitem hitems
      have hlen : items'.length = counted.items.length := hsames.length_eq.symm
      refine ⟨⟨items', hlen ▸ counted.length_lt⟩, ?_, hsames⟩
      simp only [Counted.pieces, Counted.count, hlen]

/-- The same when nothing but the number of the items matters. -/
theorem exists_counted_of_alike {ι : Type} {spell : ι → List Piece}
    (hitem : ∀ item pieces, List.Forall₂ Alike (spell item) pieces → ∃ item', spell item' = pieces)
    {counted : Counted ι} {pieces : List Piece}
    (h : List.Forall₂ Alike (counted.pieces spell) pieces) :
    ∃ counted' : Counted ι, counted'.pieces spell = pieces
      ∧ counted'.items.length = counted.items.length := by
  obtain ⟨counted', hpieces, hsames⟩ := exists_counted_same_of_alike
    (fun item pieces h => (hitem item pieces h).imp fun item' h => ⟨h, trivial⟩) h
  exact ⟨counted', hpieces, hsames.length_eq.symm⟩

theorem exists_pair_of_alike (pair : UInt16 × UInt16) (pieces : List Piece)
    (h : List.Forall₂ Alike (entryPieces pair) pieces) : ∃ pair', entryPieces pair' = pieces := by
  cases h with
  | cons hentry hnil =>
    cases hentry with
    | entry startPc line line' =>
      cases hnil
      exact ⟨(pair.1, line'), rfl⟩

theorem exists_bodyAttribute_of_alike (a : BodyAttribute pool) (pieces : List Piece)
    (h : List.Forall₂ Alike a.pieces pieces) : ∃ a' : BodyAttribute pool, a'.pieces = pieces := by
  cases a with
  | table name hnamed entries =>
    cases h with
    | cons hhead hentries =>
      cases hhead with
      | plain =>
        obtain ⟨entries', rfl, hlen⟩ := exists_counted_of_alike exists_pair_of_alike hentries
        refine ⟨.table name hnamed entries', ?_⟩
        rw [BodyAttribute.pieces, hlen]
  | other name hnamed contents =>
    exact ⟨.other name hnamed contents, (forall₂_alike_plain h).symm⟩

theorem exists_body_of_alike (body : Body pool) (pieces : List Piece)
    (h : List.Forall₂ Alike body.pieces pieces) :
    ∃ body' : Body pool, body'.pieces = pieces := by
  cases h with
  | cons hhead hattributes =>
    cases hhead with
    | plain =>
      obtain ⟨attributes', rfl, -⟩ :=
        exists_counted_of_alike exists_bodyAttribute_of_alike hattributes
      exact ⟨{ body with attributes := attributes' }, rfl⟩

theorem exists_methodAttribute_of_alike (a : MethodAttribute pool) (pieces : List Piece)
    (h : List.Forall₂ Alike a.pieces pieces) : ∃ a' : MethodAttribute pool, a'.pieces = pieces := by
  cases a with
  | code name hnamed body hlt =>
    cases h with
    | cons hhead hbody =>
      cases hhead with
      | plain =>
        -- the declared length of the body stays true because lines have a fixed width
        have hlen := Piece.length_encode_of_alike hbody
        obtain ⟨body', rfl⟩ := exists_body_of_alike body _ hbody
        have hlen : body'.length = body.length := hlen
        refine ⟨.code name hnamed body' (hlen ▸ hlt), ?_⟩
        rw [MethodAttribute.pieces, hlen]
  | other name hnamed contents =>
    exact ⟨.other name hnamed contents, (forall₂_alike_plain h).symm⟩

/-- Methods that differ at most in lines. -/
structure Method.Same (method method' : Method pool) : Prop where
  name : method'.name = method.name
  descriptor : method'.descriptor = method.descriptor
  alike : List.Forall₂ Alike method.pieces method'.pieces

theorem exists_method_of_alike (method : Method pool) (pieces : List Piece)
    (h : List.Forall₂ Alike method.pieces pieces) :
    ∃ method' : Method pool, method'.pieces = pieces ∧ method.Same method' := by
  have halike := h
  cases h with
  | cons hhead hattributes =>
    cases hhead with
    | plain =>
      obtain ⟨attributes', rfl, -⟩ :=
        exists_counted_of_alike exists_methodAttribute_of_alike hattributes
      exact ⟨{ method with attributes := attributes' }, rfl, rfl, rfl, halike⟩

/-- Pieces that are alike to those of a layout are those of the layout with other methods. -/
theorem exists_layout_of_alike (layout : Layout) {pieces : List Piece}
    (h : List.Forall₂ Alike layout.pieces pieces) :
    ∃ methods : Counted (Method layout.pool),
      { layout with methods : Layout }.pieces = pieces
        ∧ List.Forall₂ Method.Same layout.methods.items methods.items := by
  rw [Layout.pieces, List.cons_append] at h
  cases h with
  | cons hpreamble hrest =>
    cases hpreamble with
    | plain =>
      obtain ⟨_, _, rfl, hmethods, hattributes⟩ := exists_append_of_alike hrest
      obtain ⟨methods, rfl, hsames⟩ :=
        exists_counted_same_of_alike exists_method_of_alike hmethods
      refine ⟨methods, ?_, hsames⟩
      rw [forall₂_alike_plain hattributes]
      rfl

/-! ## The lines of a layout -/

/-- Lists related by an equation of images have equal images. -/
theorem map_eq_of_forall₂ {α β : Type} {f : α → β} {R : α → α → Prop} {xs ys : List α}
    (h : List.Forall₂ R xs ys) (hR : ∀ x y, R x y → f y = f x) : ys.map f = xs.map f := by
  induction h with
  | nil => rfl
  | cons hxy _ ih => rw [List.map_cons, List.map_cons, hR _ _ hxy, ih]

theorem offsets_of_alike {pieces pieces' : List Piece} (h : List.Forall₂ Alike pieces pieces')
    (position : Nat) :
    (Piece.entries position pieces').map LineEntry.offset
      = (Piece.entries position pieces).map LineEntry.offset :=
  map_eq_of_forall₂ (Piece.entries_of_alike h position) fun _ _ hentry => hentry.2

theorem startPcs_of_alike {pieces pieces' : List Piece} (h : List.Forall₂ Alike pieces pieces')
    (position : Nat) :
    (Piece.entries position pieces').map LineEntry.startPc
      = (Piece.entries position pieces).map LineEntry.startPc :=
  map_eq_of_forall₂ (Piece.entries_of_alike h position) fun _ _ hentry => hentry.1

/-- What does not depend on lines is the same in methods that differ in lines only. -/
theorem map_linesFrom_of_same {β : Type} {f : MethodLines → β}
    (hf : ∀ (method method' : Method pool) (position : Nat), method.Same method'
      → f (method'.lines position) = f (method.lines position))
    {methods methods' : List (Method pool)} (h : List.Forall₂ Method.Same methods methods')
    (position : Nat) :
    (Method.linesFrom position methods').map f = (Method.linesFrom position methods).map f := by
  induction h generalizing position with
  | nil => rfl
  | cons hsame _ ih =>
    rw [Method.linesFrom, Method.linesFrom, List.map_cons, List.map_cons, hf _ _ _ hsame, ih,
      Piece.length_encode_of_alike hsame.alike]

/-! ## Writing lines -/

/-- The bytes that a written entry leaves. -/
theorem writeLine_append (front back : Bytes) (a b : UInt8) (startPc line : UInt16) :
    ClassFile.writeLine (front ++ a :: b :: back).toArray
        { startPc, line, offset := front.length }
      = (front ++ (Piece.word line ++ back)).toArray := by
  rw [Piece.word, Bytes.ofNatBE_two, ClassFile.writeLine]
  simp

/-- Writing the entries of pieces over alike ones gives their bytes. -/
theorem foldl_writeLine_of_alike {pieces pieces' : List Piece}
    (h : List.Forall₂ Alike pieces pieces') (front back : Bytes) :
    (Piece.entries front.length pieces').foldl ClassFile.writeLine
        (front ++ Piece.encode pieces ++ back).toArray
      = (front ++ Piece.encode pieces' ++ back).toArray := by
  induction h generalizing front with
  | nil => rfl
  | @cons _ _ rest _ hpiece _ ih =>
    cases hpiece with
    | plain bytes =>
      have h := ih (front ++ bytes)
      rw [List.length_append] at h
      simpa only [Piece.entries_plain, Piece.encode_plain, List.append_assoc] using h
    | entry startPc line line' =>
      have h := ih (front ++ Piece.word startPc ++ Piece.word line')
      have hlen : (front ++ Piece.word startPc).length = front.length + 2 := by
        rw [List.length_append, Piece.length_word]
      rw [List.length_append, hlen, Piece.length_word] at h
      -- the two bytes of the old line are written over, whatever they are
      obtain ⟨a, b, hline⟩ : ∃ a b, Piece.word line = [a, b] :=
        List.length_eq_two.1 (Piece.length_word line)
      have hwrite := writeLine_append (front ++ Piece.word startPc) (Piece.encode rest ++ back) a b
        startPc line'
      rw [hlen] at hwrite
      rw [Piece.entries_entry, List.foldl_cons, Piece.encode_entry, Piece.encode_entry, hline]
      simp only [List.append_assoc, List.cons_append, List.nil_append] at h hwrite ⊢
      rw [hwrite]
      exact h

/-- What is written depends on the places and lines of the entries only. -/
theorem foldl_writeLine_congr {entries entries' : List LineEntry}
    (hoffsets : entries'.map LineEntry.offset = entries.map LineEntry.offset)
    (hlines : entries'.map LineEntry.line = entries.map LineEntry.line) (bytes : Array UInt8) :
    entries'.foldl ClassFile.writeLine bytes = entries.foldl ClassFile.writeLine bytes := by
  induction entries generalizing entries' bytes with
  | nil =>
    rw [List.map_nil, List.map_eq_nil_iff] at hoffsets
    rw [hoffsets]
  | cons e entries ih =>
    obtain ⟨e', entries', rfl, hoffset, hoffsets⟩ := List.map_eq_cons_iff.1 hoffsets
    rw [List.map_cons, List.map_cons, List.cons.injEq] at hlines
    rw [List.foldl_cons, List.foldl_cons, ih hoffsets hlines.2, ClassFile.writeLine,
      ClassFile.writeLine, hoffset, hlines.1]

/-! ## Class files with other lines -/

/-- The names of the methods. -/
def names (c : ClassFile) : List String :=
  c.methods.map MethodLines.name

/-- The descriptors of the methods. -/
def descriptors (c : ClassFile) : List String :=
  c.methods.map MethodLines.descriptor

/-- The numbers of entries of the methods. -/
def counts (c : ClassFile) : List Nat :=
  c.methods.map fun m => m.entries.length

/-- The places of the lines, method by method. -/
def offsets (c : ClassFile) : List (List Nat) :=
  c.methods.map fun m => m.entries.map LineEntry.offset

/-- The instruction offsets, method by method. -/
def startPcs (c : ClassFile) : List (List UInt16) :=
  c.methods.map fun m => m.entries.map LineEntry.startPc

/-- The lines, method by method. -/
def lines (c : ClassFile) : List (List UInt16) :=
  c.methods.map fun m => m.entries.map LineEntry.line

/-- Two class files of the same bytes that differ in nothing but lines and instruction offsets. -/
structure Edited (c c' : ClassFile) : Prop where
  bytes : c'.bytes = c.bytes
  names : c'.names = c.names
  descriptors : c'.descriptors = c.descriptors
  offsets : c'.offsets = c.offsets

theorem Edited.refl (c : ClassFile) : c.Edited c :=
  ⟨rfl, rfl, rfl, rfl⟩

theorem Edited.trans {c c' c'' : ClassFile} (h : c.Edited c') (h' : c'.Edited c'') :
    c.Edited c'' where
  bytes := h'.bytes.trans h.bytes
  names := h'.names.trans h.names
  descriptors := h'.descriptors.trans h.descriptors
  offsets := h'.offsets.trans h.offsets

/-- A field of the entries, method by method, is that field of all entries. -/
theorem flatten_map_entries {β : Type} (c : ClassFile) (f : LineEntry → β) :
    (c.methods.map fun m => m.entries.map f).flatten = c.entries.map f := by
  rw [entries, List.map_flatMap, List.flatMap]

theorem map_length_map_entries {β : Type} (c : ClassFile) (f : LineEntry → β) :
    (c.methods.map fun m => m.entries.map f).map List.length = c.counts := by
  rw [List.map_map]
  exact List.map_congr_left fun m _ => List.length_map f

theorem counts_eq_of_offsets {c c' : ClassFile} (h : c'.offsets = c.offsets) :
    c'.counts = c.counts := by
  rw [← map_length_map_entries c' LineEntry.offset, ← map_length_map_entries c LineEntry.offset]
  exact congrArg (List.map List.length) h

theorem Edited.map_offset {c c' : ClassFile} (h : c.Edited c') :
    c'.entries.map LineEntry.offset = c.entries.map LineEntry.offset := by
  rw [← flatten_map_entries, ← flatten_map_entries]
  exact congrArg List.flatten h.offsets

/-- The bytes of an edited class file are pieces alike to those that were read. -/
theorem exists_pieces_of_edited {bytes : Bytes} {c c' : ClassFile} (hparse : parse bytes = .ok c)
    (h : c.Edited c') :
    ∃ (layout : Layout) (pieces : List Piece), layout.encode = bytes
      ∧ layout.methodLines = c.methods ∧ List.Forall₂ Alike layout.pieces pieces
      ∧ (Piece.entries 0 pieces).map LineEntry.line = c'.entries.map LineEntry.line
      ∧ c'.toBytes = Piece.encode pieces := by
  obtain ⟨hbytes, layout, hspell, hmethods⟩ := parse_eq_ok_iff.1 hparse
  have hentries : Piece.entries 0 layout.pieces = c.entries := by
    rw [← entries_methodLines, hmethods, entries]
  have hcount : (c'.entries.map LineEntry.line).length
      = (Piece.entries 0 layout.pieces).length := by
    rw [hentries, List.length_map, ← List.length_map LineEntry.offset, h.map_offset,
      List.length_map]
  -- the layout that was read, with the lines that were set
  obtain ⟨pieces, halike, hlines⟩ := Piece.exists_alike_of_lines layout.pieces 0 hcount
  have hoffsets : (Piece.entries 0 pieces).map LineEntry.offset
      = c'.entries.map LineEntry.offset := by
    rw [offsets_of_alike halike, hentries, h.map_offset]
  have hwrite := foldl_writeLine_of_alike halike [] []
  have hspell' : Piece.encode layout.pieces = bytes := hspell
  rw [List.length_nil, List.nil_append, List.nil_append, List.append_nil, List.append_nil, hspell',
    foldl_writeLine_congr hoffsets hlines] at hwrite
  refine ⟨layout, pieces, hspell, hmethods, halike, hlines, ?_⟩
  rw [toBytes, h.bytes, hbytes, hwrite]

/-- Editing keeps the number of bytes. -/
theorem length_toBytes {bytes : Bytes} {c c' : ClassFile} (hparse : parse bytes = .ok c)
    (h : c.Edited c') : c'.toBytes.length = bytes.length := by
  obtain ⟨layout, pieces, hspell, -, halike, -, hwritten⟩ := exists_pieces_of_edited hparse h
  rw [hwritten, Piece.length_encode_of_alike halike, ← hspell]
  rfl

/-- A byte that editing changed is one of the two of a line that was changed. -/
theorem exists_entry_of_getElem?_toBytes_ne {bytes : Bytes} {c c' : ClassFile}
    (hparse : parse bytes = .ok c) (h : c.Edited c') {i : Nat} (hi : c'.toBytes[i]? ≠ bytes[i]?) :
    ∃ (k : Nat) (e e' : LineEntry), c.entries[k]? = some e ∧ c'.entries[k]? = some e'
      ∧ e'.line ≠ e.line ∧ (i = e.offset ∨ i = e.offset + 1) := by
  obtain ⟨layout, pieces, hspell, hmethods, halike, hlines, hwritten⟩ :=
    exists_pieces_of_edited hparse h
  have hentries : Piece.entries 0 layout.pieces = c.entries := by
    rw [← entries_methodLines, hmethods, entries]
  by_contra hnone
  push Not at hnone
  apply hi
  rw [hwritten, ← hspell]
  apply Piece.getElem?_encode_of_alike halike 0
  intro pair hpair hne
  obtain ⟨k, hk⟩ := List.mem_iff_getElem?.1 hpair
  rw [List.getElem?_zip_eq_some, hentries] at hk
  -- the entry of the edited class file has the line of the entry that the pieces have there
  have hline := congrArg (fun lines => lines[k]?) hlines
  simp only [List.getElem?_map, hk.2, Option.map_some] at hline
  obtain ⟨e', he', hline⟩ := Option.map_eq_some_iff.1 hline.symm
  rw [Nat.zero_add]
  exact hnone k pair.1 e' hk.1 he' (hline.trans_ne hne.symm)

/-- What was read is written again. -/
theorem toBytes_of_parse {bytes : Bytes} {c : ClassFile} (hparse : parse bytes = .ok c) :
    c.toBytes = bytes := by
  apply List.ext_getElem?
  intro i
  by_contra hi
  obtain ⟨k, e, e', he, he', hne, -⟩ :=
    exists_entry_of_getElem?_toBytes_ne hparse (Edited.refl c) hi
  rw [he, Option.some.injEq] at he'
  exact hne (congrArg LineEntry.line he'.symm)

/-- What is written does not depend on instruction offsets. -/
theorem toBytes_congr {c c' c'' : ClassFile} (h' : c.Edited c') (h'' : c.Edited c'')
    (hlines : c''.lines = c'.lines) : c''.toBytes = c'.toBytes := by
  rw [toBytes, toBytes, h''.bytes, h'.bytes, foldl_writeLine_congr]
  · rw [h''.map_offset, h'.map_offset]
  · rw [← flatten_map_entries, ← flatten_map_entries]
    exact congrArg List.flatten hlines

/-- The bytes of an edited class file are read as the class file with the lines that were set. -/
theorem exists_parse_toBytes {bytes : Bytes} {c c' : ClassFile} (hparse : parse bytes = .ok c)
    (h : c.Edited c') :
    ∃ d, parse c'.toBytes = .ok d ∧ d.bytes = c'.toBytes ∧ d.names = c.names
      ∧ d.descriptors = c.descriptors ∧ d.offsets = c.offsets ∧ d.startPcs = c.startPcs
      ∧ d.lines = c'.lines := by
  obtain ⟨layout, pieces, -, hmethods, halike, hlines, hwritten⟩ := exists_pieces_of_edited hparse h
  obtain ⟨methods, rfl, hsames⟩ := exists_layout_of_alike layout halike
  have hfield {β : Type} {f : MethodLines → β}
      (hf : ∀ (method method' : Method layout.pool) (position : Nat), method.Same method'
        → f (method'.lines position) = f (method.lines position)) :
      { layout with methods : Layout }.methodLines.map f = c.methods.map f := by
    rw [← hmethods]
    exact map_linesFrom_of_same hf hsames _
  let d : ClassFile := ⟨c'.toBytes, { layout with methods : Layout }.methodLines⟩
  have hoffsets : d.offsets = c.offsets :=
    hfield fun _ _ position hsame => offsets_of_alike hsame.alike position
  refine ⟨d, parse_eq_ok_iff.2 ⟨rfl, _, hwritten.symm, rfl⟩, rfl, ?_, ?_, hoffsets, ?_, ?_⟩
  · refine hfield fun _ _ _ hsame => ?_
    rw [Method.lines, Method.lines, hsame.name]
  · refine hfield fun _ _ _ hsame => ?_
    rw [Method.lines, Method.lines, hsame.descriptor]
  · exact hfield fun _ _ position hsame => startPcs_of_alike hsame.alike position
  · -- the lines are those of all entries, cut into methods by the numbers of entries
    have hcounts : d.counts = c'.counts :=
      (counts_eq_of_offsets hoffsets).trans (counts_eq_of_offsets h.offsets).symm
    have hall : d.entries = Piece.entries 0 { layout with methods : Layout }.pieces :=
      entries_methodLines _
    rw [lines, lines, List.eq_iff_flatten_eq, flatten_map_entries, flatten_map_entries,
      map_length_map_entries, map_length_map_entries, hall]
    exact ⟨hlines, hcounts⟩

end Reline.ClassFile
