/-
  Reline.Proofs.ClassFile.Grammar

  The reader of class files accepts exactly the layouts of the grammar.

  Each reader is matched with a part of a layout by one equivalence: it yields a
  value between two cursors exactly when the bytes of such a part stand between
  them, and the value is what the part says. Main statement
  (`parse_eq_ok_iff`): bytes are read as a class file exactly when they
  are those of a layout, and the methods that are found are those of the layout,
  each entry with its instruction offset, its line and its place.
-/

import Reline.ClassFile.Read
import Reline.Proofs.ClassFile.Pool

namespace Reline.ClassFile

open Reader

variable {table : ConstantPool} {pool : Pool} {cursor next : Cursor}

/-! ## Building blocks -/

theorem yields_skip_word {done : Unit} :
    (skip 2).Yields cursor done next ↔ ∃ n, cursor.Passes (Piece.word n) next := by
  rw [yields_skip]
  constructor
  · rintro ⟨bytes, hlen, hpass⟩
    have hlt := Bytes.toNatBE_lt bytes
    have hspell := Bytes.ofNatBE_toNatBE bytes
    rw [hlen] at hlt hspell
    refine ⟨UInt16.ofNat (Bytes.toNatBE bytes), ?_⟩
    rw [Piece.word, UInt16.toNat_ofNat', Nat.mod_eq_of_lt hlt, hspell]
    exact hpass
  · rintro ⟨n, hpass⟩
    exact ⟨_, Piece.length_word n, hpass⟩

/-- A length and as many bytes, read in two steps. -/
theorem sized_iff {n : Nat} {done : Unit} :
    (∃ between, u4.Yields cursor n between ∧ (skip n).Yields between done next)
      ↔ ∃ sized : Sized, n = sized.bytes.length ∧ cursor.Passes sized.encode next := by
  simp only [yields_u4, yields_skip]
  constructor
  · rintro ⟨between, ⟨hlt, hlength⟩, bytes, rfl, hbytes⟩
    exact ⟨⟨bytes, hlt⟩, rfl, Cursor.passes_append.2 ⟨between, hlength, hbytes⟩⟩
  · rintro ⟨sized, rfl, hpass⟩
    obtain ⟨between, hlength, hbytes⟩ := Cursor.passes_append.1 hpass
    exact ⟨between, ⟨sized.length_lt, hlength⟩, sized.bytes, rfl, hbytes⟩

/-- A number of rows and the rows, read in two steps. -/
theorem rows_iff {width : Nat} {done : Unit} :
    (∃ n between, u2.Yields cursor n between ∧ (skip (n.toNat * width)).Yields between done next)
      ↔ ∃ rows : Rows width, cursor.Passes rows.encode next := by
  simp only [yields_u2, yields_skip]
  constructor
  · rintro ⟨n, between, hcount, bytes, hlen, hbytes⟩
    exact ⟨⟨n, bytes, hlen⟩, Cursor.passes_append.2 ⟨between, hcount, hbytes⟩⟩
  · rintro ⟨rows, hpass⟩
    obtain ⟨between, hcount, hbytes⟩ := Cursor.passes_append.1 hpass
    exact ⟨rows.count, between, hcount, rows.bytes, rows.length_bytes, hbytes⟩

/-- A number of items and the items, read in two steps. -/
theorem counted_iff {α ι : Type} {step : α → Reader α} {spell : ι → Bytes}
    {update : Nat → ι → α → α}
    (hstep : ∀ value cursor result next, (step value).Yields cursor result next
      ↔ ∃ item, cursor.Passes (spell item) next ∧ result = update cursor.position item value)
    {n : UInt16} {value result : α} :
    (∃ between, u2.Yields cursor n between
        ∧ (iterate step n.toNat value).Yields between result next)
      ↔ ∃ counted : Counted ι, n = counted.count
        ∧ cursor.Passes (counted.encode spell) next
        ∧ result = walk spell update (cursor.position + 2) counted.items value := by
  simp only [yields_u2, yields_iterate hstep]
  constructor
  · rintro ⟨between, hcount, items, hlen, hitems, rfl⟩
    have hlt : items.length < 65536 := hlen ▸ n.toNat_lt
    have hn : n = Counted.count ⟨items, hlt⟩ := by
      apply UInt16.toNat.inj
      rw [Counted.toNat_count, hlen]
    refine ⟨⟨items, hlt⟩, hn, ?_, ?_⟩
    · rw [Counted.encode, ← hn]
      exact Cursor.passes_append.2 ⟨between, hcount, hitems⟩
    · rw [hcount.position, Piece.length_word]
  · rintro ⟨counted, rfl, hpass, rfl⟩
    obtain ⟨between, hcount, hitems⟩ := Cursor.passes_append.1 hpass
    refine ⟨between, hcount, counted.items, counted.toNat_count.symm, hitems, ?_⟩
    rw [hcount.position, Piece.length_word]

/-- A number of items and the items, read in two steps, when nothing is kept of them. -/
theorem counted_unit_iff {ι : Type} {step : Unit → Reader Unit} {spell : ι → Bytes}
    (hstep : ∀ cursor done next, (step ()).Yields cursor done next
      ↔ ∃ item, cursor.Passes (spell item) next)
    {n : UInt16} {done : Unit} :
    (∃ between, u2.Yields cursor n between
        ∧ (iterate step n.toNat ()).Yields between done next)
      ↔ ∃ counted : Counted ι, n = counted.count
        ∧ cursor.Passes (counted.encode spell) next := by
  rw [@counted_iff cursor next Unit ι step spell (fun _ _ _ => ()) (by simp [hstep])]
  simp

/-- A reference to a text, read in two steps. -/
theorem name_iff (h : table.Represents pool) {text : Bytes} :
    (∃ index between, u2.Yields cursor index between
        ∧ (table.text index).Yields between text next)
      ↔ ∃ name : Name pool, text = name.text ∧ cursor.Passes (Piece.word name.index) next := by
  simp only [yields_u2, yields_text h]
  constructor
  · rintro ⟨index, between, hindex, htext, rfl⟩
    exact ⟨⟨index, text, htext⟩, rfl, hindex⟩
  · rintro ⟨name, rfl, hpass⟩
    exact ⟨name.index, next, hpass, name.text_eq, rfl⟩

/-! ## What does not matter -/

theorem yields_skipAttribute {done : Unit} :
    skipAttribute.Yields cursor done next ↔ ∃ a : Attribute, cursor.Passes a.encode next := by
  simp only [skipAttribute, yields_bind, yields_skip_word]
  constructor
  · rintro ⟨_, between, ⟨name, hname⟩, _, h⟩
    obtain ⟨contents, -, hcontents⟩ := sized_iff.1 h
    exact ⟨⟨name, contents⟩, Cursor.passes_append.2 ⟨between, hname, hcontents⟩⟩
  · rintro ⟨a, hpass⟩
    obtain ⟨between, hname, hcontents⟩ := Cursor.passes_append.1 hpass
    exact ⟨(), between, ⟨a.name, hname⟩, _, sized_iff.2 ⟨a.contents, rfl, hcontents⟩⟩

theorem yields_skipAttributes {done : Unit} :
    skipAttributes.Yields cursor done next
      ↔ ∃ attributes : Counted Attribute,
        cursor.Passes (attributes.encode Attribute.encode) next := by
  simp only [skipAttributes, yields_bind]
  constructor
  · rintro ⟨n, h⟩
    obtain ⟨attributes, -, hpass⟩ :=
      (counted_unit_iff fun _ _ _ => yields_skipAttribute).1 h
    exact ⟨attributes, hpass⟩
  · rintro ⟨attributes, hpass⟩
    exact ⟨_, (counted_unit_iff fun _ _ _ => yields_skipAttribute).2 ⟨attributes, rfl, hpass⟩⟩

theorem yields_skipField {done : Unit} :
    skipField.Yields cursor done next ↔ ∃ field : Field, cursor.Passes field.encode next := by
  simp only [skipField, yields_bind, yields_skip, yields_skipAttributes]
  constructor
  · rintro ⟨_, between, ⟨header, hlen, hheader⟩, attributes, hattributes⟩
    exact ⟨⟨⟨header, hlen⟩, attributes⟩, Cursor.passes_append.2 ⟨between, hheader, hattributes⟩⟩
  · rintro ⟨field, hpass⟩
    obtain ⟨between, hheader, hattributes⟩ := Cursor.passes_append.1 hpass
    exact ⟨(), between, ⟨_, field.header.length_bytes, hheader⟩, field.attributes, hattributes⟩

/-! ## Line number tables

Entries that were found are kept in reverse, so a reader of pieces puts their entries, reversed, in
front of those found before. -/

/-- What reading pieces at a position adds to the entries found before. -/
def addEntries {ι : Type} (spell : ι → List Piece) (position : Nat) (item : ι)
    (found : List LineEntry) : List LineEntry :=
  (Piece.entries position (spell item)).reverse ++ found

/-- Entries of several items are added as those of all their pieces. -/
theorem walk_addEntries {ι : Type} (spell : ι → List Piece) (position : Nat) (items : List ι)
    (found : List LineEntry) :
    walk (fun item => Piece.encode (spell item)) (addEntries spell) position items found
      = (Piece.entries position (items.flatMap spell)).reverse ++ found := by
  induction items generalizing position found with
  | nil => rfl
  | cons item items ih =>
    rw [walk, ih, addEntries, List.flatMap_cons, Piece.entries_append, List.reverse_append,
      List.append_assoc]

/-- A number of items with line entries and the items, read in two steps. -/
theorem counted_entries_iff {ι : Type} {step : List LineEntry → Reader (List LineEntry)}
    {spell : ι → List Piece}
    (hstep : ∀ found cursor result next, (step found).Yields cursor result next
      ↔ ∃ item, cursor.Passes (Piece.encode (spell item)) next
        ∧ result = addEntries spell cursor.position item found)
    {n : UInt16} {found result : List LineEntry} :
    (∃ between, u2.Yields cursor n between
        ∧ (iterate step n.toNat found).Yields between result next)
      ↔ ∃ counted : Counted ι, n = counted.count
        ∧ cursor.Passes (Piece.encode (counted.pieces spell)) next
        ∧ result = addEntries (Counted.pieces spell) cursor.position counted found := by
  rw [@counted_iff cursor next _ ι step (fun item => Piece.encode (spell item))
    (addEntries spell) hstep]
  simp only [walk_addEntries, addEntries, Counted.encode_pieces]
  rfl

theorem yields_readEntry {found result : List LineEntry} :
    (readEntry found).Yields cursor result next
      ↔ ∃ pair, cursor.Passes (Piece.encode (entryPieces pair)) next
        ∧ result = addEntries entryPieces cursor.position pair found := by
  simp only [readEntry, yields_bind, yields_u2, yields_position, yields_pure]
  constructor
  · rintro ⟨startPc, between, hstart, _, _, ⟨rfl, rfl⟩, line, _, hline, rfl, rfl⟩
    refine ⟨(startPc, line), ?_, ?_⟩
    · simp only [entryPieces, Piece.encode_entry, Piece.encode_nil, List.append_nil]
      exact Cursor.passes_append.2 ⟨_, hstart, hline⟩
    · simp only [entryPieces, addEntries, Piece.entries_entry, Piece.entries_nil,
        hstart.position, Piece.length_word]
      rfl
  · rintro ⟨⟨startPc, line⟩, hpass, rfl⟩
    simp only [entryPieces, Piece.encode_entry, Piece.encode_nil, List.append_nil] at hpass
    obtain ⟨between, hstart, hline⟩ := Cursor.passes_append.1 hpass
    refine ⟨startPc, between, hstart, _, _, ⟨rfl, rfl⟩, line, next, hline, ?_, rfl⟩
    simp only [entryPieces, addEntries, Piece.entries_entry, Piece.entries_nil, hstart.position,
      Piece.length_word]
    rfl

/-- A table is accepted if it declares the length of its pairs. -/
theorem yields_readTable {declared : Nat} {found result : List LineEntry} :
    (readTable declared found).Yields cursor result next
      ↔ ∃ entries : Counted (UInt16 × UInt16), declared = 2 + entries.items.length * 4
        ∧ cursor.Passes (Piece.encode (entries.pieces entryPieces)) next
        ∧ result = addEntries (Counted.pieces entryPieces) cursor.position entries found := by
  simp only [readTable, yields_bind, yields_check, ne_eq, not_not]
  constructor
  · rintro ⟨n, between, hn, hdeclared, h⟩
    obtain ⟨entries, rfl, hpass, hresult⟩ :=
      (counted_entries_iff fun _ _ _ _ => yields_readEntry).1 ⟨between, hn, h⟩
    rw [Counted.toNat_count] at hdeclared
    exact ⟨entries, hdeclared.symm, hpass, hresult⟩
  · rintro ⟨entries, rfl, hpass, hresult⟩
    obtain ⟨between, hn, h⟩ :=
      (counted_entries_iff fun _ _ _ _ => yields_readEntry).2 ⟨entries, rfl, hpass, hresult⟩
    refine ⟨_, between, hn, ?_, h⟩
    rw [Counted.toNat_count]

/-! ## Bodies of methods -/

/-- The reader of an attribute that has special contents behind one name, and any behind others. -/
def readNamed (table : ConstantPool) (key : Bytes)
    (special : Nat → List LineEntry → Reader (List LineEntry)) (found : List LineEntry) :
    Reader (List LineEntry) := do
  let name ← table.text (← u2)
  let length ← u4
  if name = key then
    special length found
  else
    skip length
    return found

theorem yields_readNamed (h : table.Represents pool) {key : Bytes}
    {special : Nat → List LineEntry → Reader (List LineEntry)} {found result : List LineEntry} :
    (readNamed table key special found).Yields cursor result next
      ↔ (∃ (name : Name pool) (length : Nat) (between : Cursor), name.text = key
          ∧ length < 4294967296
          ∧ cursor.Passes (Piece.word name.index ++ Bytes.ofNatBE 4 length) between
          ∧ (special length found).Yields between result next)
        ∨ ∃ (name : Name pool) (contents : Sized), name.text ≠ key
          ∧ cursor.Passes (Piece.word name.index ++ contents.encode) next ∧ result = found := by
  simp only [readNamed, yields_bind]
  constructor
  · rintro ⟨index, _, hindex, text, afterName, htext, length, afterLength, hlength, hrest⟩
    obtain ⟨name, rfl, hname⟩ := (name_iff h).1 ⟨index, _, hindex, htext⟩
    -- an attribute of another name is passed over by its length
    by_cases hnamed : name.text = key
    · rw [if_pos hnamed] at hrest
      obtain ⟨hlt, hlength⟩ := yields_u4.1 hlength
      have hhead := Cursor.passes_append.2 ⟨afterName, hname, hlength⟩
      exact .inl ⟨name, length, afterLength, hnamed, hlt, hhead, hrest⟩
    · rw [if_neg hnamed] at hrest
      simp only [yields_bind, yields_pure] at hrest
      obtain ⟨done, _, hskip, rfl, rfl⟩ := hrest
      obtain ⟨contents, -, hcontents⟩ := sized_iff.1 ⟨afterLength, hlength, hskip⟩
      have hall := Cursor.passes_append.2 ⟨afterName, hname, hcontents⟩
      exact .inr ⟨name, contents, hnamed, hall, rfl⟩
  · rintro (⟨name, length, afterLength, hnamed, hlt, hhead, hrest⟩
      | ⟨name, contents, hnamed, hpass, rfl⟩)
    · obtain ⟨afterName, hname, hlength⟩ := Cursor.passes_append.1 hhead
      obtain ⟨index, _, hindex, htext⟩ := (name_iff h).2 ⟨name, rfl, hname⟩
      refine ⟨index, _, hindex, name.text, afterName, htext, length, afterLength,
        yields_u4.2 ⟨hlt, hlength⟩, ?_⟩
      rw [if_pos hnamed]
      exact hrest
    · obtain ⟨afterName, hname, hcontents⟩ := Cursor.passes_append.1 hpass
      obtain ⟨index, _, hindex, htext⟩ := (name_iff h).2 ⟨name, rfl, hname⟩
      obtain ⟨afterLength, hlength, hskip⟩ :=
        (@sized_iff afterName next _ ()).2 ⟨contents, rfl, hcontents⟩
      refine ⟨index, _, hindex, name.text, afterName, htext, _, afterLength, hlength, ?_⟩
      rw [if_neg hnamed]
      simp only [yields_bind, yields_pure]
      exact ⟨(), next, hskip, trivial, rfl⟩

theorem yields_readBodyAttribute (h : table.Represents pool) {found result : List LineEntry} :
    (readBodyAttribute table found).Yields cursor result next
      ↔ ∃ a : BodyAttribute pool, cursor.Passes (Piece.encode a.pieces) next
        ∧ result = addEntries BodyAttribute.pieces cursor.position a found := by
  have hreader : readBodyAttribute table found
      = readNamed table (Text.Utf8.encode "LineNumberTable") readTable found := rfl
  rw [hreader, yields_readNamed h]
  constructor
  · rintro (⟨name, length, between, hnamed, -, hhead, hrest⟩
      | ⟨name, contents, hnamed, hpass, rfl⟩)
    · obtain ⟨entries, rfl, hentries, rfl⟩ := yields_readTable.1 hrest
      refine ⟨.table name hnamed entries, ?_, ?_⟩
      · exact Cursor.passes_append.2 ⟨between, hhead, hentries⟩
      · rw [addEntries, hhead.position]
        rfl
    · refine ⟨.other name hnamed contents, ?_, rfl⟩
      simp only [BodyAttribute.pieces, Piece.encode_plain, Piece.encode_nil, List.append_nil]
      exact hpass
  · rintro ⟨a, hpass, rfl⟩
    cases a with
    | table name hnamed entries =>
      simp only [BodyAttribute.pieces, Piece.encode_plain] at hpass
      obtain ⟨between, hhead, hentries⟩ := Cursor.passes_append.1 hpass
      have hlt : 2 + entries.items.length * 4 < 4294967296 := by
        have := entries.length_lt
        omega
      refine .inl ⟨name, _, between, hnamed, hlt, hhead,
        yields_readTable.2 ⟨entries, rfl, hentries, ?_⟩⟩
      rw [addEntries, addEntries, hhead.position]
      rfl
    | other name hnamed contents =>
      simp only [BodyAttribute.pieces, Piece.encode_plain, Piece.encode_nil, List.append_nil]
        at hpass
      exact .inr ⟨name, contents, hnamed, hpass, rfl⟩

/-- A body is accepted if it has the declared length. -/
theorem yields_readBody (h : table.Represents pool) {declared : Nat}
    {found result : List LineEntry} :
    (readBody table declared found).Yields cursor result next
      ↔ ∃ body : Body pool, declared = body.length
        ∧ cursor.Passes (Piece.encode body.pieces) next
        ∧ result = addEntries Body.pieces cursor.position body found := by
  simp only [readBody, yields_bind, yields_position, yields_check, yields_pure, ne_eq, not_not]
  have hstep := fun found cursor result next =>
    @yields_readBodyAttribute table pool cursor next h found result
  constructor
  · rintro ⟨_, _, ⟨rfl, rfl⟩, _, afterLimits, hlimits, size, afterSize, hsize, _, afterCode, hcode,
      count, afterCount, hcount, _, afterHandlers, hhandlers, n, afterN, hn, _, afterAttributes,
      hattributes, _, _, ⟨rfl, rfl⟩, hdeclared, rfl, rfl⟩
    obtain ⟨limits, hlen, hlimits⟩ := yields_skip.1 hlimits
    obtain ⟨code, -, hcode⟩ := sized_iff.1 ⟨afterSize, hsize, hcode⟩
    obtain ⟨handlers, hhandlers⟩ := rows_iff.1 ⟨count, afterCount, hcount, hhandlers⟩
    obtain ⟨attributes, -, htail, rfl⟩ :=
      (counted_entries_iff hstep).1 ⟨afterN, hn, hattributes⟩
    -- limits, code, handlers and attributes stand one behind the other, without gaps
    have hcode := Cursor.passes_append.2 ⟨afterLimits, hlimits, hcode⟩
    have hhead := Cursor.passes_append.2 ⟨afterCode, hcode, hhandlers⟩
    have hbody := Cursor.passes_append.2 ⟨afterHandlers, hhead, htail⟩
    refine ⟨⟨⟨limits, hlen⟩, code, handlers, attributes⟩, ?_, hbody, ?_⟩
    · rw [← hdeclared, hbody.position, Nat.add_sub_cancel_left]
      rfl
    · rw [addEntries, hhead.position]
      rfl
  · rintro ⟨body, rfl, hpass, rfl⟩
    have hlength := hpass.position
    obtain ⟨afterHandlers, hhead, hattributes⟩ := Cursor.passes_append.1 hpass
    obtain ⟨afterCode, hcode, hhandlers⟩ := Cursor.passes_append.1 hhead
    obtain ⟨afterLimits, hlimits, hcode⟩ := Cursor.passes_append.1 hcode
    obtain ⟨afterSize, hsize, hcode⟩ := (@sized_iff _ _ _ ()).2 ⟨body.code, rfl, hcode⟩
    obtain ⟨count, afterCount, hcount, hhandlers⟩ := (@rows_iff _ _ _ ()).2 ⟨_, hhandlers⟩
    obtain ⟨afterN, hn, hattributes⟩ :=
      (counted_entries_iff hstep).2 ⟨body.attributes, rfl, hattributes, rfl⟩
    refine ⟨_, _, ⟨rfl, rfl⟩, (), afterLimits, yields_skip.2 ⟨_, body.limits.length_bytes, hlimits⟩,
      _, afterSize, hsize, (), afterCode, hcode, count, afterCount, hcount, (), afterHandlers,
      hhandlers, _, afterN, hn, _, next, hattributes, _, _, ⟨rfl, rfl⟩, ?_, ?_, rfl⟩
    · rw [hlength, Nat.add_sub_cancel_left]
      rfl
    · rw [addEntries, addEntries, hhead.position]
      rfl

/-! ## Methods -/

theorem yields_readMethodAttribute (h : table.Represents pool) {found result : List LineEntry} :
    (readMethodAttribute table found).Yields cursor result next
      ↔ ∃ a : MethodAttribute pool, cursor.Passes (Piece.encode a.pieces) next
        ∧ result = addEntries MethodAttribute.pieces cursor.position a found := by
  have hreader : readMethodAttribute table found
      = readNamed table (Text.Utf8.encode "Code") (readBody table) found := rfl
  rw [hreader, yields_readNamed h]
  constructor
  · rintro (⟨name, length, between, hnamed, hlt, hhead, hrest⟩
      | ⟨name, contents, hnamed, hpass, rfl⟩)
    · obtain ⟨body, rfl, hbody, rfl⟩ := (yields_readBody h).1 hrest
      refine ⟨.code name hnamed body hlt, ?_, ?_⟩
      · exact Cursor.passes_append.2 ⟨between, hhead, hbody⟩
      · rw [addEntries, hhead.position]
        rfl
    · refine ⟨.other name hnamed contents, ?_, rfl⟩
      simp only [MethodAttribute.pieces, Piece.encode_plain, Piece.encode_nil, List.append_nil]
      exact hpass
  · rintro ⟨a, hpass, rfl⟩
    cases a with
    | code name hnamed body hlt =>
      simp only [MethodAttribute.pieces, Piece.encode_plain] at hpass
      obtain ⟨between, hhead, hbody⟩ := Cursor.passes_append.1 hpass
      refine .inl ⟨name, _, between, hnamed, hlt, hhead,
        (yields_readBody h).2 ⟨body, rfl, hbody, ?_⟩⟩
      rw [addEntries, addEntries, hhead.position]
      rfl
    | other name hnamed contents =>
      simp only [MethodAttribute.pieces, Piece.encode_plain, Piece.encode_nil, List.append_nil]
        at hpass
      exact .inr ⟨name, contents, hnamed, hpass, rfl⟩

/-- What reading a method at a position adds to the methods found before. -/
def addLines (position : Nat) (method : Method pool) (found : List MethodLines) :
    List MethodLines :=
  method.lines position :: found

theorem yields_readMethod (h : table.Represents pool) {found result : List MethodLines} :
    (readMethod table found).Yields cursor result next
      ↔ ∃ method : Method pool, cursor.Passes (Piece.encode method.pieces) next
        ∧ result = addLines cursor.position method found := by
  simp only [readMethod, yields_bind, yields_pure]
  have hstep := fun found cursor result next =>
    @yields_readMethodAttribute table pool cursor next h found result
  constructor
  · rintro ⟨_, afterFlags, hflags, index, _, hindex, text, afterName, htext, index', _, hindex',
      text', afterDescriptor, htext', n, afterN, hn, _, _, hattributes, rfl, rfl⟩
    -- the entries were collected in reverse from none, and are turned around at the end
    obtain ⟨flags, hlen, hflags⟩ := yields_skip.1 hflags
    obtain ⟨name, rfl, hname⟩ := (name_iff h).1 ⟨index, _, hindex, htext⟩
    obtain ⟨descriptor, rfl, hdescriptor⟩ := (name_iff h).1 ⟨index', _, hindex', htext'⟩
    obtain ⟨attributes, -, htail, rfl⟩ :=
      (counted_entries_iff hstep).1 ⟨afterN, hn, hattributes⟩
    have hname := Cursor.passes_append.2 ⟨afterFlags, hflags, hname⟩
    have hhead := Cursor.passes_append.2 ⟨afterName, hname, hdescriptor⟩
    refine ⟨⟨⟨flags, hlen⟩, name, descriptor, attributes⟩, ?_, ?_⟩
    · exact Cursor.passes_append.2 ⟨afterDescriptor, hhead, htail⟩
    · simp only [addEntries, addLines, List.append_nil, List.reverse_reverse, hhead.position]
      rfl
  · rintro ⟨method, hpass, rfl⟩
    obtain ⟨afterDescriptor, hhead, hattributes⟩ := Cursor.passes_append.1 hpass
    obtain ⟨afterName, hname, hdescriptor⟩ := Cursor.passes_append.1 hhead
    obtain ⟨afterFlags, hflags, hname⟩ := Cursor.passes_append.1 hname
    obtain ⟨index, _, hindex, htext⟩ := (name_iff h).2 ⟨method.name, rfl, hname⟩
    obtain ⟨index', _, hindex', htext'⟩ := (name_iff h).2 ⟨method.descriptor, rfl, hdescriptor⟩
    obtain ⟨afterN, hn, hattributes⟩ :=
      (counted_entries_iff hstep).2 ⟨method.attributes, rfl, hattributes, rfl⟩
    refine ⟨(), afterFlags, yields_skip.2 ⟨_, method.flags.length_bytes, hflags⟩, index, _, hindex,
      _, afterName, htext, index', _, hindex', _, afterDescriptor, htext', _, afterN, hn, _, next,
      hattributes, ?_, rfl⟩
    simp only [addEntries, addLines, List.append_nil, List.reverse_reverse, hhead.position]
    rfl

/-- Methods that were found are kept in reverse. -/
theorem walk_lines (position : Nat) (methods : List (Method pool)) (found : List MethodLines) :
    walk (fun method => Piece.encode method.pieces) addLines position methods found
      = (Method.linesFrom position methods).reverse ++ found := by
  induction methods generalizing position found with
  | nil => rfl
  | cons method methods ih =>
    rw [walk, ih, Method.linesFrom, List.reverse_cons, List.append_assoc]
    rfl

/-! ## Class files -/

theorem passes_magic : cursor.Passes (Bytes.ofNatBE 4 magic) next
    ↔ cursor.Passes Layout.signature next := by
  have hspell : Bytes.ofNatBE 4 magic = Layout.signature := by decide
  rw [hspell]

/-- The parts in front of the methods come one after the other. -/
theorem passes_preamble_iff {layout : Layout} :
    cursor.Passes layout.preamble next
      ↔ ∃ afterMagic afterVersion afterPool afterHeader afterInterfaces,
        cursor.Passes Layout.signature afterMagic
          ∧ afterMagic.Passes layout.version.bytes afterVersion
          ∧ afterVersion.Passes layout.pool.encode afterPool
          ∧ afterPool.Passes layout.header.bytes afterHeader
          ∧ afterHeader.Passes layout.interfaces.encode afterInterfaces
          ∧ afterInterfaces.Passes (layout.fields.encode Field.encode) next := by
  simp only [Layout.preamble, Cursor.passes_append]
  constructor
  · rintro ⟨_, ⟨_, ⟨_, ⟨_, ⟨_, hsignature, hversion⟩, hpool⟩, hheader⟩, hinterfaces⟩, hfields⟩
    exact ⟨_, _, _, _, _, hsignature, hversion, hpool, hheader, hinterfaces, hfields⟩
  · rintro ⟨_, _, _, _, _, hsignature, hversion, hpool, hheader, hinterfaces, hfields⟩
    exact ⟨_, ⟨_, ⟨_, ⟨_, ⟨_, hsignature, hversion⟩, hpool⟩, hheader⟩, hinterfaces⟩, hfields⟩

/-- The reader of a class file accepts the bytes of layouts that reach to the end. -/
theorem yields_readMethods {result : List MethodLines} (hstart : cursor.position = 0) :
    readMethods.Yields cursor result next
      ↔ ∃ layout : Layout, cursor.Passes layout.encode next ∧ next.remaining = 0
        ∧ result = layout.methodLines := by
  simp only [readMethods, yields_bind, yields_check, yields_get, yields_pure, ne_eq, not_not]
  constructor
  · rintro ⟨_, afterMagic, hmagic, rfl, _, afterVersion, hversion, _, afterPool, hpool, _,
      afterHeader, hheader, count, afterCount, hcount, _, afterInterfaces, hinterfaces, n, afterN,
      hn, _, afterFields, hfields, k, afterK, hk, _, afterMethods, hmethods, _, afterAttributes,
      hattributes, _, _, ⟨rfl, rfl⟩, hend, rfl, rfl⟩
    -- each part that was read is passed over from where the one before it ended
    have hsignature := passes_magic.1 (yields_u4.1 hmagic).2
    obtain ⟨version, hversionLength, hversion⟩ := yields_skip.1 hversion
    obtain ⟨pool, hconstants, rfl⟩ := yields_read.1 hpool
    obtain ⟨header, hheaderLength, hheader⟩ := yields_skip.1 hheader
    obtain ⟨interfaces, hinterfaces⟩ := rows_iff.1 ⟨count, afterCount, hcount, hinterfaces⟩
    obtain ⟨fields, -, hfields⟩ :=
      (counted_unit_iff fun _ _ _ => yields_skipField).1 ⟨afterN, hn, hfields⟩
    have hstep := fun found cursor result next =>
      @yields_readMethod _ pool cursor next (represents_pushAll pool) found result
    obtain ⟨methods, -, hspelled, rfl⟩ := (counted_iff hstep).1 ⟨afterK, hk, hmethods⟩
    obtain ⟨attributes, hattributes⟩ := yields_skipAttributes.1 hattributes
    let layout : Layout := ⟨⟨version, hversionLength⟩, pool, ⟨header, hheaderLength⟩, interfaces,
      fields, methods, attributes⟩
    have hpreamble : cursor.Passes layout.preamble afterFields := passes_preamble_iff.2
      ⟨_, _, _, _, _, hsignature, hversion, hconstants, hheader, hinterfaces, hfields⟩
    refine ⟨layout, ?_, hend, ?_⟩
    · rw [Layout.encode_eq]
      exact Cursor.passes_append.2
        ⟨afterMethods, Cursor.passes_append.2 ⟨afterFields, hpreamble, hspelled⟩, hattributes⟩
    · rw [walk_lines, List.append_nil, List.reverse_reverse, hpreamble.position, hstart,
        Nat.zero_add]
      rfl
  · rintro ⟨layout, hpass, hend, rfl⟩
    rw [Layout.encode_eq] at hpass
    obtain ⟨afterMethods, hmethods, hattributes⟩ := Cursor.passes_append.1 hpass
    obtain ⟨afterFields, hpreamble, hmethods⟩ := Cursor.passes_append.1 hmethods
    obtain ⟨afterMagic, afterVersion, afterPool, afterHeader, afterInterfaces, hsignature, hversion,
      hpool, hheader, hinterfaces, hfields⟩ := passes_preamble_iff.1 hpreamble
    obtain ⟨count, afterCount, hcount, hinterfaces⟩ := (@rows_iff _ _ _ ()).2 ⟨_, hinterfaces⟩
    obtain ⟨afterN, hn, hfields⟩ := (@counted_unit_iff _ _ _ (fun () => skipField) _
      (fun _ _ _ => yields_skipField) _ ()).2 ⟨layout.fields, rfl, hfields⟩
    have hstep := fun found cursor result next =>
      @yields_readMethod _ layout.pool cursor next (represents_pushAll layout.pool) found result
    obtain ⟨afterK, hk, hmethods⟩ := (counted_iff hstep).2 ⟨layout.methods, rfl, hmethods, rfl⟩
    refine ⟨magic, afterMagic, yields_u4.2 ⟨by decide, passes_magic.2 hsignature⟩, rfl,
      (), afterVersion, yields_skip.2 ⟨_, layout.version.length_bytes, hversion⟩,
      _, afterPool, yields_read.2 ⟨layout.pool, hpool, rfl⟩,
      (), afterHeader, yields_skip.2 ⟨_, layout.header.length_bytes, hheader⟩,
      count, afterCount, hcount, (), afterInterfaces, hinterfaces, _, afterN, hn, (), afterFields,
      hfields, _, afterK, hk, _, afterMethods, hmethods, (), next,
      yields_skipAttributes.2 ⟨layout.attributes, hattributes⟩, _, _, ⟨rfl, rfl⟩, hend, ?_, rfl⟩
    rw [walk_lines, List.append_nil, List.reverse_reverse, hpreamble.position, hstart, Nat.zero_add]
    rfl

/-- Bytes are a class file exactly if they are those of a layout, and then its methods are those of
the layout. -/
theorem parse_eq_ok_iff {bytes : Bytes} {c : ClassFile} :
    parse bytes = .ok c
      ↔ c.bytes = bytes ∧ ∃ layout : Layout, layout.encode = bytes
        ∧ layout.methodLines = c.methods := by
  constructor
  · intro h
    unfold parse at h
    cases hread : readMethods.run (Cursor.start bytes) with
    | error e =>
      rw [hread] at h
      contradiction
    | ok pair =>
      obtain ⟨methods, next⟩ := pair
      rw [hread] at h
      cases h
      obtain ⟨layout, hpass, hend, rfl⟩ := (yields_readMethods rfl).1 hread
      -- the reader stops at the end, so the layout spells all bytes
      have hnil : next.rest = [] := by
        rw [← List.length_eq_zero_iff, next.length_rest, hend]
      have hall : bytes = layout.encode ++ next.rest := hpass.1
      rw [hnil, List.append_nil] at hall
      exact ⟨rfl, layout, hall.symm, rfl⟩
  · rintro ⟨hbytes, layout, rfl, hmethods⟩
    have hall : (Cursor.start layout.encode).rest = layout.encode ++ [] :=
      (List.append_nil layout.encode).symm
    have hread : readMethods.run (Cursor.start layout.encode) = .ok (layout.methodLines, _) :=
      (yields_readMethods rfl).2 ⟨layout, Cursor.passes_advance hall, Nat.sub_self _, rfl⟩
    obtain ⟨bytes, methods⟩ := c
    have hbytes : bytes = layout.encode := hbytes
    have hmethods : layout.methodLines = methods := hmethods
    subst hbytes hmethods
    rw [parse, hread]
    rfl

end Reline.ClassFile
