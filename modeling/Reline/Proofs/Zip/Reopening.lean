/-
  Reline.Proofs.Zip.Reopening

  An archive that was written is read as the items that it was written of.

  Every number in a record is written in a fixed number of bytes, and a number
  that fits its field is read back. So the items of an archive have to keep to the
  limits of the format, `Item.Fits`, and so has the archive as a whole, `Fits`:
  its directory begins below 2^32, say. One condition is no limit. The end record
  is searched for backwards from the end, so an end signature in the comment, or
  in the fields as far behind the record's own signature as the comment is long,
  would be taken for it. Without a comment nothing else is looked at.

  Main statement: `reopens_of_fits`.
-/

import Mathlib
import Reline.Proofs.Text.Utf8
import Reline.Proofs.Zip.Contents

namespace Reline

theorem Buffer.window_append (front rest : Bytes) (offset len : Nat) :
    Buffer.window (front ++ rest).toArray (front.length + offset) len = rest.slice offset len := by
  rw [Buffer.window_eq_slice, Bytes.slice, List.drop_length_add_append, Bytes.slice]

namespace Zip

/-! ## Fields -/

theorem takeBytes_append {n : Nat} {head : Bytes} (h : head.length = n) (rest : Bytes) :
    takeBytes n (head ++ rest) = .ok (head, rest) := by
  rw [takeBytes, List.take_left' h, List.drop_left' h]
  exact if_neg (by omega)

theorem takeBytes_zero (bytes : Bytes) : takeBytes 0 bytes = .ok ([], bytes) :=
  takeBytes_append (rfl : [].length = 0) bytes

theorem takeBytes_length {n : Nat} {bytes : Bytes} (h : bytes.length = n) :
    takeBytes n bytes = .ok (bytes, []) := by
  have hbytes := takeBytes_append h []
  rwa [List.append_nil] at hbytes

/-- The first field of a record is read. -/
theorem word_ofNatLE_append {width n : Nat} (h : n < 256 ^ width) (rest : Bytes) :
    word (Bytes.ofNatLE width n ++ rest) 0 width = n := by
  rw [word, Bytes.slice, List.drop_zero, List.take_left' (Bytes.length_ofNatLE width n),
    Bytes.toNatLE_ofNatLE width n h]

/-- The only field of a record is read. -/
theorem word_ofNatLE {width n : Nat} (h : n < 256 ^ width) :
    word (Bytes.ofNatLE width n) 0 width = n := by
  rw [← List.append_nil (Bytes.ofNatLE width n), word_ofNatLE_append h]

/-- To read a field behind the first one, the first one is passed over. -/
theorem word_append_of_le {width offset : Nat} (h : width ≤ offset) (n : Nat) (rest : Bytes)
    (width' : Nat) :
    word (Bytes.ofNatLE width n ++ rest) offset width' = word rest (offset - width) width' := by
  rw [word, word, Bytes.slice, Bytes.slice, List.drop_append, Bytes.length_ofNatLE,
    List.drop_of_length_le (by rwa [Bytes.length_ofNatLE]), List.nil_append]

/-! ## The end record -/

section LastSignature

variable {found : Option Nat} {offset windows : Nat} {bytes : Bytes}

theorem lastSignature_eq_found (h : ∀ i, i < windows → ¬ endSignature <+: bytes.drop i) :
    lastSignature found offset windows bytes = found := by
  induction bytes generalizing found offset windows with
  | nil => cases windows <;> rfl
  | cons b rest ih =>
    cases windows with
    | zero => rfl
    | succ windows =>
      have hhead : endSignature.isPrefixOf (b :: rest) = false := by
        rw [Bool.eq_false_iff, Ne, List.isPrefixOf_iff_prefix]
        exact h 0 (by omega)
      rw [lastSignature, hhead]
      exact ih fun i hi => h (i + 1) (by omega)

/-- The last end signature is found. -/
theorem lastSignature_eq_some {i : Nat} (hi : i < windows)
    (hsignature : endSignature <+: bytes.drop i)
    (hlast : ∀ j, i < j → j < windows → ¬ endSignature <+: bytes.drop j) :
    lastSignature found offset windows bytes = some (offset + i) := by
  induction bytes generalizing found offset windows i with
  | nil =>
    rw [List.drop_nil, List.prefix_nil] at hsignature
    cases hsignature
  | cons b rest ih =>
    obtain ⟨windows, rfl⟩ := Nat.exists_eq_add_one_of_ne_zero (Nat.ne_zero_of_lt hi)
    rw [lastSignature]
    cases i with
    | zero =>
      rw [List.drop_zero, ← List.isPrefixOf_iff_prefix] at hsignature
      rw [hsignature]
      exact lastSignature_eq_found fun j hj => hlast (j + 1) (by omega) (by omega)
    | succ i =>
      rw [ih (by omega) hsignature fun j hj hj' => hlast (j + 1) (by omega) (by omega)]
      congr 1
      omega

end LastSignature

/-- The fields of an end record in front of its comment. -/
def endFields (count directorySize directoryOffset commentSize : Nat) : Bytes :=
  Bytes.ofNatLE 4 0x06054B50 ++ (Bytes.ofNatLE 2 0 ++ (Bytes.ofNatLE 2 0 ++ (Bytes.ofNatLE 2 count
    ++ (Bytes.ofNatLE 2 count ++ (Bytes.ofNatLE 4 directorySize
    ++ (Bytes.ofNatLE 4 directoryOffset ++ Bytes.ofNatLE 2 commentSize))))))

theorem length_endFields (count directorySize directoryOffset commentSize : Nat) :
    (endFields count directorySize directoryOffset commentSize).length = endRecordSize := by
  simp only [endFields, List.length_append, Bytes.length_ofNatLE]
  rfl

theorem encodeEnd_eq (count directorySize directoryOffset : Nat) (comment : Bytes) :
    encodeEnd count directorySize directoryOffset comment
      = endFields count directorySize directoryOffset comment.length ++ comment := by
  have hsignature : endSignature = Bytes.ofNatLE 4 0x06054B50 := rfl
  simp only [encodeEnd, endFields, hsignature, List.append_assoc]

theorem prefix_encodeEnd (count directorySize directoryOffset : Nat) (comment : Bytes) :
    endSignature <+: encodeEnd count directorySize directoryOffset comment := by
  simp only [encodeEnd, List.append_assoc]
  exact List.prefix_append ..

/-- The end record at the end of a file is read, unless its comment hides it. -/
theorem EndRecord.read_append {front : Bytes} {count directorySize directoryOffset : Nat}
    {comment : Bytes} (hcount : count < 2 ^ 16) (hsize : directorySize < 2 ^ 32)
    (hoffset : directoryOffset < 2 ^ 32) (hcomment : comment.length < 2 ^ 16)
    (hlast : ∀ i, 0 < i → i ≤ comment.length →
      ¬ endSignature <+: (encodeEnd count directorySize directoryOffset comment).drop i) :
    EndRecord.read (front ++ encodeEnd count directorySize directoryOffset comment).toArray
      = .ok ⟨front.length, 0, 0, count, count, directorySize, directoryOffset, comment⟩ := by
  have hfields := length_endFields count directorySize directoryOffset comment.length
  have heq := encodeEnd_eq count directorySize directoryOffset comment
  have hsignature := prefix_encodeEnd count directorySize directoryOffset comment
  generalize encodeEnd count directorySize directoryOffset comment = record at *
  have hfile : (front ++ record).toArray.size = front.length + endRecordSize + comment.length := by
    rw [List.size_toArray, heq, List.length_append, List.length_append]
    omega
  rw [EndRecord.read]
  extract_lets last first
  -- the record stands among the places that are searched
  have hplace : first ≤ front.length ∧ last = front.length + comment.length := by
    omega
  have hlarge : ¬ (front ++ record).toArray.size < endRecordSize := by
    omega
  clear_value first last
  obtain ⟨hfirst, rfl⟩ := hplace
  have hdrop : ∀ i, (Buffer.suffix (front ++ record).toArray first).drop (front.length - first + i)
      = record.drop i := by
    intro i
    rw [Buffer.suffix_eq_drop, List.drop_drop, ← Nat.add_assoc, Nat.add_sub_cancel' hfirst,
      List.drop_length_add_append]
  have hfind : lastSignature none first (front.length + comment.length - first + 1)
      (Buffer.suffix (front ++ record).toArray first) = some front.length := by
    rw [@lastSignature_eq_some _ _ _ _ (front.length - first) (by omega),
      Nat.add_sub_cancel' hfirst]
    · rw [← Nat.add_zero (front.length - first), hdrop]
      exact hsignature
    · intro j hj hj'
      obtain ⟨i, rfl⟩ := Nat.exists_eq_add_of_lt hj
      rw [Nat.add_assoc, hdrop]
      exact hlast _ (by omega) (by omega)
  have hcommentSize : word (endFields count directorySize directoryOffset comment.length) 20 2
      = comment.length := by
    simp (disch := omega) only [endFields, word_append_of_le, word_ofNatLE, Nat.reduceSub]
  rw [if_neg hlarge, hfind]
  dsimp only
  rw [Buffer.suffix_eq_drop, List.drop_left, heq, takeBytes_append hfields]
  dsimp only [bind, Except.bind]
  rw [hcommentSize, takeBytes_length rfl]
  simp (disch := omega) only [endFields, word_append_of_le, word_ofNatLE_append, Nat.reduceSub]
  rfl

/-! ## Directory records -/

namespace Item

/-- Whether the fields of the records of an item have room for what they say, its data is as long as
they say, and its method is known. -/
structure Fits (item : Item) : Prop where
  name : item.nameBytes.length < 2 ^ 16
  method : item.method = .stored ∨ item.method = .deflated
  date : item.date < 2 ^ 16
  time : item.time < 2 ^ 16
  mode : item.mode < 2 ^ 16
  crc : item.crc < 2 ^ 32
  size : item.size < 2 ^ 32
  compressed : item.compressed.length = item.compressedSize

/-- The fields of the directory record of an item between its signature and its name. -/
def directoryFields (item : Item) (offset : Nat) : Bytes :=
  Bytes.ofNatLE 2 0x032E ++ (Bytes.ofNatLE 2 20 ++ (Bytes.ofNatLE 2 item.flags
    ++ (Bytes.ofNatLE 2 item.method.code ++ (Bytes.ofNatLE 2 item.time
    ++ (Bytes.ofNatLE 2 item.date ++ (Bytes.ofNatLE 4 item.crc
    ++ (Bytes.ofNatLE 4 item.compressedSize ++ (Bytes.ofNatLE 4 item.size
    ++ (Bytes.ofNatLE 2 item.nameBytes.length ++ (Bytes.ofNatLE 2 0 ++ (Bytes.ofNatLE 2 0
    ++ (Bytes.ofNatLE 2 0 ++ (Bytes.ofNatLE 2 0 ++ (Bytes.ofNatLE 4 (item.mode <<< 16)
    ++ Bytes.ofNatLE 4 offset))))))))))))))

theorem length_directoryFields (item : Item) (offset : Nat) :
    (item.directoryFields offset).length = 42 := by
  simp only [directoryFields, List.length_append, Bytes.length_ofNatLE]

theorem directoryRecord_eq (item : Item) (offset : Nat) :
    item.directoryRecord offset = Bytes.ofNatLE 4 directorySignature
      ++ (item.directoryFields offset ++ item.nameBytes) := by
  simp only [directoryRecord, directoryFields, commonFields, dataFields, List.append_assoc]

theorem flags_lt (item : Item) : item.flags < 2 ^ 16 := by
  rw [flags]
  split <;> decide

theorem testBit_flags_zero (item : Item) : item.flags.testBit 0 = false := by
  rw [flags]
  split <;> decide

/-- The name is read in the character set that the flags announce. -/
theorem decode_nameBytes (item : Item) :
    (if item.flags.testBit 11 then Text.Utf8.decodeReplacing item.nameBytes
      else Text.Codepage437.decode item.nameBytes) = item.name := by
  rw [flags]
  split
  case isTrue hascii =>
    rw [if_neg (by decide)]
    exact Text.Utf8.decode_encode_of_ascii fun b hb => by
      simpa using List.all_eq_true.1 hascii b hb
  case isFalse =>
    rw [if_pos (by decide)]
    exact Text.Utf8.decodeReplacing_encode item.name

namespace Fits

variable {item : Item}

theorem code_lt (h : item.Fits) : item.method.code < 2 ^ 16 := by
  rcases h.method with hmethod | hmethod <;> rw [hmethod] <;> decide

/-- The method is read from its number, as there are no extra fields. -/
theorem ofRecord_code (h : item.Fits) : Method.ofRecord item.method.code [] = .ok item.method := by
  have hextra : Method.ofExtraFields none [] = .ok none := by
    rw [Method.ofExtraFields]
    rfl
  rw [Method.ofRecord, hextra]
  rcases h.method with hmethod | hmethod <;> rw [hmethod] <;> rfl

/-- The fields of a directory record are read. -/
theorem word_directoryFields (h : item.Fits) (hcompressed : item.compressedSize < 2 ^ 32)
    {offset : Nat} (hoffset : offset < 2 ^ 32) :
    word (item.directoryFields offset) 1 1 = 3
      ∧ word (item.directoryFields offset) 4 2 = item.flags
      ∧ word (item.directoryFields offset) 6 2 = item.method.code
      ∧ word (item.directoryFields offset) 8 2 = item.time
      ∧ word (item.directoryFields offset) 10 2 = item.date
      ∧ word (item.directoryFields offset) 12 4 = item.crc
      ∧ word (item.directoryFields offset) 16 4 = item.compressedSize
      ∧ word (item.directoryFields offset) 20 4 = item.size
      ∧ word (item.directoryFields offset) 24 2 = item.nameBytes.length
      ∧ word (item.directoryFields offset) 26 2 = 0
      ∧ word (item.directoryFields offset) 28 2 = 0
      ∧ word (item.directoryFields offset) 34 4 = item.mode <<< 16
      ∧ word (item.directoryFields offset) 38 4 = offset := by
  have hflags := item.flags_lt
  have hcode := h.code_lt
  obtain ⟨hname, -, hdate, htime, hmode, hcrc, hsize, -⟩ := h
  refine ⟨rfl, ?_, ?_, ?_, ?_, ?_, ?_, ?_, ?_, ?_, ?_, ?_, ?_⟩ <;>
    simp (disch := omega) only [directoryFields, word_append_of_le, word_ofNatLE_append,
      word_ofNatLE, Nat.reduceSub]

end Fits

end Item

/-- The directory record of an item gives its entry. -/
theorem readEntry_append {item : Item} (h : item.Fits) (hcompressed : item.compressedSize < 2 ^ 32)
    {offset : Nat} (hoffset : offset < 2 ^ 32) (shift : Nat) (rest : Bytes) :
    readEntry shift (item.directoryRecord offset ++ rest)
      = .ok (item.entry (offset + shift), rest) := by
  obtain ⟨hsystem, hflags, hcode, htime, hdate, hcrc, hcompressedSize, hsize, hname, hextra,
    hcomment, hattributes, hrecordOffset⟩ := h.word_directoryFields hcompressed hoffset
  rw [readEntry, item.directoryRecord_eq, List.append_assoc, List.append_assoc,
    takeBytes_append (Bytes.length_ofNatLE ..)]
  dsimp only [bind, Except.bind]
  rw [Bytes.toNatLE_ofNatLE _ _ (by decide), if_neg (by decide)]
  dsimp only [pure, Except.pure]
  rw [takeBytes_append (item.length_directoryFields offset)]
  dsimp only
  rw [hname, takeBytes_append rfl]
  dsimp only
  rw [hextra, takeBytes_zero]
  dsimp only
  rw [hcomment, takeBytes_zero]
  dsimp only
  rw [hcode, h.ofRecord_code]
  dsimp only
  rw [hflags, item.decode_nameBytes, item.testBit_flags_zero, htime, hdate, hcrc, hcompressedSize,
    hsize, hsystem, hattributes, hrecordOffset]
  rfl

/-- The entries of items, the first of which stands at an offset. -/
def entriesFrom (offset : Nat) : List Item → List Entry
  | [] => []
  | item :: items => item.entry offset :: entriesFrom (offset + item.encode.length) items

theorem encodeItems_cons (item : Item) (items : List Item) :
    encodeItems (item :: items) = item.encode ++ encodeItems items :=
  List.flatMap_cons

/-- The directory records of items give their entries in order. -/
theorem readEntries_append {items : List Item} (h : ∀ item ∈ items, item.Fits) {offset : Nat}
    (hoffset : offset + (encodeItems items).length < 2 ^ 32) (found : List Entry) (rest : Bytes) :
    readEntries 0 found items.length (directoryRecords offset items ++ rest)
      = .ok (found.reverse ++ entriesFrom offset items) := by
  induction items generalizing offset found with
  | nil =>
    rw [entriesFrom, List.append_nil]
    rfl
  | cons item items ih =>
    have hfits := h item (List.mem_cons_self ..)
    rw [encodeItems_cons, List.length_append] at hoffset
    have hcompressed : item.compressedSize ≤ item.encode.length := by
      rw [← hfits.compressed, Item.encode, List.length_append]
      exact Nat.le_add_left ..
    rw [directoryRecords, List.append_assoc, List.length_cons, readEntries,
      readEntry_append hfits (by omega) (by omega)]
    dsimp only [bind, Except.bind]
    rw [ih (fun item' hitem' => h item' (List.mem_cons_of_mem _ hitem')) (by omega),
      List.reverse_cons, List.append_assoc, Nat.add_zero]
    rfl

/-! ## Data -/

namespace Item

/-- The fields of the record in front of an item's data between its signature and its name. -/
def localFields (item : Item) : Bytes :=
  Bytes.ofNatLE 2 20 ++ (Bytes.ofNatLE 2 item.flags ++ (Bytes.ofNatLE 2 item.method.code
    ++ (Bytes.ofNatLE 2 item.time ++ (Bytes.ofNatLE 2 item.date ++ (Bytes.ofNatLE 4 item.crc
    ++ (Bytes.ofNatLE 4 item.compressedSize ++ (Bytes.ofNatLE 4 item.size
    ++ (Bytes.ofNatLE 2 item.nameBytes.length ++ Bytes.ofNatLE 2 0))))))))

theorem length_localFields (item : Item) :
    item.localFields.length = localRecordSize - 4 := by
  simp only [localFields, List.length_append, Bytes.length_ofNatLE]
  rfl

theorem encode_eq (item : Item) :
    item.encode = Bytes.ofNatLE 4 localSignature
      ++ (item.localFields ++ (item.nameBytes ++ item.compressed)) := by
  simp only [encode, localRecord, localFields, commonFields, dataFields, List.append_assoc]

theorem slice_encode_append (item : Item) (behind : Bytes) :
    Bytes.slice (item.encode ++ behind) 0 localRecordSize
      = Bytes.ofNatLE 4 localSignature ++ item.localFields := by
  rw [item.encode_eq, Bytes.slice, List.drop_zero, ← List.append_assoc, List.append_assoc]
  apply List.take_left'
  rw [List.length_append, length_localFields, Bytes.length_ofNatLE]
  rfl

/-- The data stands behind the name. -/
theorem Fits.slice_encode_append {item : Item} (h : item.Fits) (behind : Bytes) :
    Bytes.slice (item.encode ++ behind) (localRecordSize + item.nameBytes.length)
      item.compressedSize = item.compressed := by
  have hfront : (Bytes.ofNatLE 4 localSignature ++ item.localFields ++ item.nameBytes).length
      = localRecordSize + item.nameBytes.length := by
    rw [List.length_append, List.length_append, length_localFields, Bytes.length_ofNatLE]
    rfl
  rw [item.encode_eq, Bytes.slice, ← List.append_assoc, ← List.append_assoc, List.append_assoc,
    List.drop_left' hfront]
  exact List.take_left' h.compressed

end Item

/-- An entry gives the data behind its record. -/
theorem compressed_entry {item : Item} (h : item.Fits) (front behind : Bytes) :
    (item.entry front.length).compressed (front ++ (item.encode ++ behind)).toArray
      = .ok item.compressed := by
  have hname := h.name
  have hlengths : word item.localFields 22 2 = item.nameBytes.length
      ∧ word item.localFields 24 2 = 0 := by
    refine ⟨?_, ?_⟩ <;>
      simp (disch := omega) only [Item.localFields, word_append_of_le, word_ofNatLE_append,
        word_ofNatLE, Nat.reduceSub]
  have hrecord := Buffer.window_append front (item.encode ++ behind) 0 localRecordSize
  rw [Nat.add_zero, item.slice_encode_append] at hrecord
  have hoffset : (item.entry front.length).recordOffset = front.length := rfl
  have hsize : (item.entry front.length).compressedSize = item.compressedSize := rfl
  rw [Entry.compressed, hoffset, hsize, hrecord]
  dsimp only
  rw [takeBytes_append (Bytes.length_ofNatLE ..)]
  dsimp only [bind, Except.bind]
  rw [Bytes.toNatLE_ofNatLE _ _ (by decide), if_neg (by decide)]
  dsimp only [pure, Except.pure]
  rw [takeBytes_length item.length_localFields]
  dsimp only
  rw [hlengths.1, hlengths.2, Nat.add_zero, Nat.add_assoc, Buffer.window_append,
    h.slice_encode_append]

theorem presents_entriesFrom {items : List Item} (h : ∀ item ∈ items, item.Fits)
    (front behind : Bytes) :
    List.Forall₂ (Presents (front ++ (encodeItems items ++ behind)).toArray) items
      (entriesFrom front.length items) := by
  induction items generalizing front with
  | nil => exact .nil
  | cons item items ih =>
    rw [encodeItems_cons, List.append_assoc, entriesFrom]
    refine .cons ⟨⟨_, rfl⟩, compressed_entry (h item (List.mem_cons_self ..)) ..⟩ ?_
    -- for the items behind it, an item belongs to what stands in front
    have hrest := ih (fun item' hitem' => h item' (List.mem_cons_of_mem _ hitem'))
      (front ++ item.encode)
    rwa [List.length_append, List.append_assoc] at hrest

/-! ## Archives -/

/-- Whether the fields of the records of an archive have room for what they say, and no end
signature is found behind that of its end record. -/
structure Fits (items : List Item) (comment : Bytes) : Prop where
  fits : ∀ item ∈ items, item.Fits
  count : items.length < 2 ^ 16
  place : (encodeItems items).length < 2 ^ 32
  directory : (directoryRecords 0 items).length < 2 ^ 32
  comment_length : comment.length < 2 ^ 16
  last : ∀ i, 0 < i → i ≤ comment.length →
    ¬ endSignature <+: (encodeEnd items.length (directoryRecords 0 items).length
      (encodeItems items).length comment).drop i

/-- The directory of an archive that was written lists its items. -/
theorem Directory.read_encode {items : List Item} {comment : Bytes} (h : Fits items comment) :
    Directory.read (encode items comment).toArray = .ok ⟨entriesFrom 0 items, comment⟩ := by
  have hplace := h.place
  have hrecord := @EndRecord.read_append (encodeItems items ++ directoryRecords 0 items) _ _ _
    comment h.count h.directory h.place h.comment_length h.last
  have hentries := @readEntries_append _ h.fits 0 (by omega) []
    (encodeEnd items.length (directoryRecords 0 items).length (encodeItems items).length comment)
  rw [Directory.read, encode, encodeTail, ← List.append_assoc, hrecord]
  dsimp only [bind, Except.bind]
  rw [if_neg (by simp), List.length_append]
  dsimp only [pure, Except.pure]
  -- the end record stands where its numbers say, so that nothing is shifted
  have hshift : (encodeItems items).length + (directoryRecords 0 items).length
      - (directoryRecords 0 items).length - (encodeItems items).length = 0 := by
    omega
  rw [if_neg (by omega), hshift, Buffer.suffix_eq_drop, List.append_assoc, Nat.add_zero,
    List.drop_left, hentries]
  rfl

/-- An archive that was written is read as its items, if they keep to the limits of the format. -/
theorem reopens_of_fits {items : List Item} {comment : Bytes} (h : Fits items comment) :
    Reopens items comment :=
  ⟨_, Directory.read_encode h, presents_entriesFrom h.fits [] _⟩

/-- New data keeps to the limits if its name and its size do. -/
theorem fits_ofData {name : String} {method : Method} {date time mode : Nat} {data : Bytes}
    (hname : (Text.Utf8.encode name).length < 2 ^ 16)
    (hmethod : method = .stored ∨ method = .deflated) (hdate : date < 2 ^ 16)
    (htime : time < 2 ^ 16) (hmode : mode < 2 ^ 16) (hdata : data.length < 2 ^ 32) :
    (Item.ofData name method date time mode data).Fits where
  name := hname
  method := hmethod
  date := hdate
  time := htime
  mode := hmode
  crc := (crc32 data).toNat_lt
  size := hdata
  compressed := rfl

theorem Item.length_encode (item : Item) :
    item.encode.length = 30 + (item.nameBytes.length + item.compressed.length) := by
  rw [item.encode_eq, List.length_append, List.length_append, length_localFields,
    List.length_append, Bytes.length_ofNatLE, ← Nat.add_assoc]
  rfl

theorem Item.length_directoryRecord (item : Item) (offset : Nat) :
    (item.directoryRecord offset).length = 46 + item.nameBytes.length := by
  rw [directoryRecord_eq, List.length_append, List.length_append, length_directoryFields,
    Bytes.length_ofNatLE, ← Nat.add_assoc]

section Short

variable {items : List Item} {bound : Nat}

theorem length_encodeItems_le
    (h : ∀ item ∈ items, item.nameBytes.length + item.compressed.length ≤ bound) :
    (encodeItems items).length ≤ items.length * (46 + bound) := by
  induction items with
  | nil => exact Nat.zero_le _
  | cons item items ih =>
    have hitem := h item (List.mem_cons_self ..)
    have hrest := ih fun item' hitem' => h item' (List.mem_cons_of_mem _ hitem')
    rw [encodeItems_cons, List.length_append, item.length_encode, List.length_cons, Nat.succ_mul]
    omega

theorem length_directoryRecords_le
    (h : ∀ item ∈ items, item.nameBytes.length + item.compressed.length ≤ bound) (offset : Nat) :
    (directoryRecords offset items).length ≤ items.length * (46 + bound) := by
  induction items generalizing offset with
  | nil => exact Nat.zero_le _
  | cons item items ih =>
    have hitem := h item (List.mem_cons_self ..)
    have hrest := ih (fun item' hitem' => h item' (List.mem_cons_of_mem _ hitem'))
      (offset + item.encode.length)
    rw [directoryRecords, List.length_append, item.length_directoryRecord, List.length_cons,
      Nat.succ_mul]
    omega

/-- An archive without a comment keeps to the limits if its items do, and are few and short. -/
theorem fits_of_length_le (h : ∀ item ∈ items, item.Fits)
    (hbound : ∀ item ∈ items, item.nameBytes.length + item.compressed.length ≤ bound)
    (hcount : items.length < 2 ^ 16) (htotal : items.length * (46 + bound) < 2 ^ 32) :
    Fits items [] where
  fits := h
  count := hcount
  place := Nat.lt_of_le_of_lt (length_encodeItems_le hbound) htotal
  directory := Nat.lt_of_le_of_lt (length_directoryRecords_le hbound 0) htotal
  comment_length := by decide
  last _ hpos hle := absurd hpos (Nat.not_lt.2 hle)

end Short

end Zip

end Reline
