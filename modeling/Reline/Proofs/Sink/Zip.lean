/-
  Reline.Proofs.Sink.Zip

  What the file of a zip sink contains.

  At every moment it holds the entries that are complete, one behind the other, and
  behind them the record of the one added last, which is completed when the next
  entry comes or the sink is closed. So each text that is saved is one item more,
  and when the sink is closed the file is the archive of its items and nothing
  else. On a disk no write is refused.

  Main statements: `ZipSink.Records.save`, `ZipSink.Records.close`.
-/

import Reline.Proofs.FileSystem.Growth
import Reline.Sink.Zip
import Reline.Zip.Encode

namespace Reline

/-! ## Writing over bytes -/

namespace Buffer

variable {buffer : Buffer} {front back middle : Bytes}

/-- What is written inside a buffer takes the place of as many bytes. -/
theorem toList_overwrite {offset : Nat} (h : offset ≤ buffer.size) (bytes : Bytes) :
    (buffer.overwrite offset bytes).toList
      = buffer.toList.take offset ++ bytes ++ buffer.toList.drop (offset + bytes.length) := by
  rw [overwrite]
  split
  case isTrue hempty =>
    rw [List.isEmpty_iff.1 hempty, List.append_nil, List.length_nil, Nat.add_zero,
      List.take_append_drop]
  case isFalse =>
    -- nothing is missing in front of the bytes
    have hresize : (buffer.resize offset).toList = buffer.toList.take offset := by
      rw [resize]
      split
      case isTrue hsize => rw [← hsize, ← Array.length_toList, List.take_length]
      case isFalse => simp [Nat.sub_eq_zero_of_le h]
    dsimp only
    rw [Array.toList_appendList, Array.toList_appendList, hresize, suffix_eq_drop]

/-- What is written at the end of a buffer comes behind its bytes. -/
theorem toList_overwrite_end (buffer : Buffer) (bytes : Bytes) :
    (buffer.overwrite buffer.size bytes).toList = buffer.toList ++ bytes := by
  have hlength : buffer.toList.length = buffer.size := Array.length_toList
  rw [toList_overwrite (Nat.le_refl _), List.take_of_length_le (Nat.le_of_eq hlength),
    List.drop_eq_nil_of_le (by omega), List.append_nil]

/-- Bytes take the place of as many others. -/
theorem toList_overwrite_middle (h : buffer.toList = front ++ middle ++ back) {bytes : Bytes}
    (hlength : bytes.length = middle.length) :
    (buffer.overwrite front.length bytes).toList = front ++ bytes ++ back := by
  have hsize : front.length ≤ buffer.size := by
    rw [← Array.length_toList, h, List.length_append, List.length_append]
    omega
  have hdrop : (front ++ middle ++ back).drop (front.length + bytes.length) = back := by
    rw [hlength, ← List.length_append, List.drop_left]
  rw [toList_overwrite hsize, h, hdrop, List.append_assoc front, List.take_left]

end Buffer

/-! ## Files on a disk -/

namespace FileSystem

variable {fs fs' : FileSystem} {id : FileId} {bytes : Bytes}

/-- Whether a file on a disk holds bytes and nothing else. -/
structure Holds (fs : FileSystem) (id : FileId) (bytes : Bytes) : Prop where
  present : id < fs.files.size
  disk : (fs.data id).medium = .disk
  bytes : (fs.data id).bytes.toList = bytes

/-- A file on a disk takes all bytes. -/
theorem Holds.write (h : Holds fs id bytes) (offset : Nat) (written : Bytes) :
    ∃ fs', fs.write id offset written = .ok fs' ∧ Refilled fs fs' id
      ∧ Holds fs' id ((fs.data id).bytes.overwrite offset written).toList := by
  have hwrite : fs.write id offset written
      = .ok (fs.modifyData id fun d => { d with bytes := d.bytes.overwrite offset written }) := by
    rw [FileSystem.write, h.disk]
  have hdata :=
    data_modifyData h.present (fun d => { d with bytes := d.bytes.overwrite offset written }) id
  rw [if_pos rfl] at hdata
  refine ⟨_, hwrite, refilled_modifyData .., ?_, ?_, ?_⟩
  · rw [size_modifyData]
    exact h.present
  · rw [hdata]
    exact h.disk
  · rw [hdata]

theorem Holds.write_end (h : Holds fs id bytes) (written : Bytes) :
    ∃ fs', fs.write id bytes.length written = .ok fs' ∧ Refilled fs fs' id
      ∧ Holds fs' id (bytes ++ written) := by
  obtain ⟨fs', hwrite, hrefilled, hholds⟩ := h.write bytes.length written
  have hsize : bytes.length = (fs.data id).bytes.size := by rw [← h.bytes, Array.length_toList]
  refine ⟨fs', hwrite, hrefilled, ?_⟩
  rw [hsize, Buffer.toList_overwrite_end, h.bytes] at hholds
  exact hholds

theorem Holds.write_middle {front middle back : Bytes} (h : Holds fs id (front ++ middle ++ back))
    {written : Bytes} (hlength : written.length = middle.length) :
    ∃ fs', fs.write id front.length written = .ok fs' ∧ Refilled fs fs' id
      ∧ Holds fs' id (front ++ written ++ back) := by
  obtain ⟨fs', hwrite, hrefilled, hholds⟩ := h.write front.length written
  refine ⟨fs', hwrite, hrefilled, ?_⟩
  rw [Buffer.toList_overwrite_middle h.bytes hlength] at hholds
  exact hholds

/-- A file that was just created is empty. -/
theorem holds_of_createFile (hfiles : WellFormed fs) {path : String}
    (hcreate : fs.createFile path = .ok (id, fs')) (hdisk : (fs'.data id).medium = .disk) :
    Holds fs' id [] := by
  rcases exists_of_createFile hcreate with
    ⟨l, slash, hfound, rfl⟩ | ⟨l, slash, hvacant, rfl, rfl⟩
  · have hpresent := hfiles.data l id (mem_way_of_found hfound).2
    refine ⟨?_, hdisk, ?_⟩
    · rw [size_modifyData]
      exact hpresent
    · rw [data_modifyData hpresent, if_pos rfl]
  · have hgrow : (fs.addData ⟨#[], newFileMode, .disk⟩).2.putNode l (.file fs.files.size)
        = fs.grow l ⟨#[], newFileMode, .disk⟩ := rfl
    rw [hgrow] at hdisk ⊢
    refine ⟨?_, hdisk, ?_⟩
    · rw [size_grow]
      exact Nat.lt_succ_self _
    · rw [data_grow, if_pos rfl]

end FileSystem

open FileSystem

/-! ## Records -/

namespace Zip

/-- The record of an item has the fields of the data at one place, whatever they are. -/
theorem Item.exists_localRecord_eq (item : Item) :
    ∃ front back, front.length = dataFieldsOffset
      ∧ ∀ fields, item.localRecord fields = front ++ fields ++ back := by
  refine ⟨Bytes.ofNatLE 4 localSignature ++ (Bytes.ofNatLE 2 20 ++ Bytes.ofNatLE 2 item.flags
    ++ Bytes.ofNatLE 2 item.method.code ++ Bytes.ofNatLE 2 item.time ++ Bytes.ofNatLE 2 item.date),
    Bytes.ofNatLE 2 item.nameBytes.length ++ Bytes.ofNatLE 2 0 ++ item.nameBytes, ?_, ?_⟩
  · simp [dataFieldsOffset]
  · intro fields
    simp only [localRecord, commonFields, List.append_assoc]

theorem Item.length_dataFields (item : Item) : item.dataFields.length = 12 := by
  simp [dataFields]

theorem encodeItems_concat (items : List Item) (item : Item) :
    encodeItems (items ++ [item]) = encodeItems items ++ item.encode := by
  rw [encodeItems, encodeItems, List.flatMap_append, List.flatMap_singleton]

end Zip

/-! ## Adding entries -/

namespace ZipOutput

variable {output : ZipOutput} {fs : FileSystem}

/-- Whether the file of an output holds what was added to it. -/
structure Records (output : ZipOutput) (fs : FileSystem) : Prop where
  holds : Holds fs output.file (Zip.encodeItems output.complete
    ++ (output.pending.map Zip.Item.openRecord).getD [])
  offset : output.offset = (Zip.encodeItems output.complete).length

/-- The pending entry is completed. -/
theorem Records.settle (h : output.Records fs) :
    ∃ output' fs', output.settle fs = .ok (output', fs') ∧ Refilled fs fs' output.file
      ∧ output'.Records fs' ∧ output'.file = output.file ∧ output'.complete = output.items
      ∧ output'.pending = none := by
  obtain ⟨hholds, hoffset⟩ := h
  cases hpending : output.pending with
  | none =>
    rw [hpending] at hholds
    refine ⟨output, fs, by rw [ZipOutput.settle, hpending], .refl .., ⟨?_, hoffset⟩, rfl, ?_,
      hpending⟩
    · rw [hpending]
      exact hholds
    · rw [items, hpending, Option.toList_none, List.append_nil]
  | some item =>
    rw [hpending, Option.map_some, Option.getD_some] at hholds
    obtain ⟨front, back, hfront, hrecord⟩ := item.exists_localRecord_eq
    -- the data comes behind the open record, in which then the fields of the data are filled in
    obtain ⟨fs₁, hwrite₁, hrefilled₁, hholds₁⟩ := hholds.write_end item.compressed
    have hopen : Zip.encodeItems output.complete ++ item.openRecord ++ item.compressed
        = (Zip.encodeItems output.complete ++ front) ++ List.replicate 12 0
          ++ (back ++ item.compressed) := by
      simp only [Zip.Item.openRecord, hrecord, List.append_assoc]
    have hclosed : (Zip.encodeItems output.complete ++ front) ++ item.dataFields
        ++ (back ++ item.compressed) = Zip.encodeItems (output.complete ++ [item]) := by
      simp only [Zip.encodeItems_concat, Zip.Item.encode, hrecord, List.append_assoc]
    rw [hopen] at hholds₁
    obtain ⟨fs₂, hwrite₂, hrefilled₂, hholds₂⟩ :=
      hholds₁.write_middle (item.length_dataFields.trans List.length_replicate.symm)
    rw [List.length_append, ← hoffset] at hwrite₁
    rw [List.length_append, ← hoffset, hfront] at hwrite₂
    rw [hclosed] at hholds₂
    refine ⟨{ output with
      complete := output.complete ++ [item], pending := none
      offset := output.offset + item.encode.length }, fs₂, ?_, hrefilled₁.trans hrefilled₂,
      ⟨?_, ?_⟩, rfl, ?_, rfl⟩
    · rw [ZipOutput.settle, hpending]
      dsimp only
      rw [hwrite₁]
      dsimp only [bind, Except.bind]
      rw [hwrite₂]
      rfl
    · dsimp only
      rw [Option.map_none, Option.getD_none, List.append_nil]
      exact hholds₂
    · dsimp only
      rw [Zip.encodeItems_concat, List.length_append, hoffset]
    · rw [items, hpending, Option.toList_some]

/-- An entry more is held behind those that were added before. -/
theorem Records.add (h : output.Records fs) (item : Zip.Item) :
    ∃ output' fs', output.add fs item = .ok (output', fs') ∧ Refilled fs fs' output.file
      ∧ output'.Records fs' ∧ output'.file = output.file
      ∧ output'.items = output.items ++ [item] := by
  obtain ⟨settled, fs₁, hsettle, hrefilled₁, ⟨hholds, hoffset⟩, hfile, hcomplete, hpending⟩ :=
    h.settle
  rw [hpending, Option.map_none, Option.getD_none, List.append_nil] at hholds
  obtain ⟨fs₂, hwrite, hrefilled₂, hholds₂⟩ := hholds.write_end item.openRecord
  rw [← hoffset] at hwrite
  refine ⟨{ settled with pending := some item }, fs₂, ?_, hrefilled₁.trans (hfile ▸ hrefilled₂),
    ⟨hholds₂, hoffset⟩, hfile, ?_⟩
  · rw [ZipOutput.add, hsettle]
    dsimp only [bind, Except.bind]
    rw [hwrite]
    rfl
  · rw [items, hcomplete]
    rfl

/-- In the end the file is the archive of all entries. -/
theorem Records.finish (h : output.Records fs) :
    ∃ fs', output.finish fs = .ok fs' ∧ Refilled fs fs' output.file
      ∧ Holds fs' output.file (Zip.encode output.items []) := by
  obtain ⟨settled, fs₁, hsettle, hrefilled₁, ⟨hholds, hoffset⟩, hfile, hcomplete, hpending⟩ :=
    h.settle
  rw [hpending, Option.map_none, Option.getD_none, List.append_nil] at hholds
  obtain ⟨fs₂, hwrite, hrefilled₂, hholds₂⟩ :=
    hholds.write_end (Zip.encodeTail settled.items [])
  have hitems : settled.items = output.items := by
    rw [items, hpending, hcomplete, Option.toList_none, List.append_nil]
  rw [← hoffset] at hwrite
  rw [hitems, hcomplete, hfile] at hholds₂
  refine ⟨fs₂, ?_, hrefilled₁.trans (hfile ▸ hrefilled₂), hholds₂⟩
  rw [ZipOutput.finish, hsettle]
  exact hwrite

end ZipOutput

/-! ## Saving texts -/

/-- The entry of a text. -/
def textItem (entryName content : String) : Zip.Item :=
  .new entryName (Text.Utf8.encode content)

namespace ZipSink

variable {sink : ZipSink} {file : FileId} {items : List Zip.Item} {world : World}

theorem textSink_save (sink : ZipSink) (world : World) (qualifiedName entryName content : String) :
    TextSink.save sink world qualifiedName entryName content
      = ((sink.save world qualifiedName entryName content).1,
        (sink.save world qualifiedName entryName content).2.1,
        (sink.save world qualifiedName entryName content).2.2.mapError Error.failure) := rfl

theorem textSink_close (sink : ZipSink) (world : World) :
    TextSink.close sink world = ((sink.close world).1, (sink.close world).2.1,
      (sink.close world).2.2.mapError Error.failure) := rfl

/-- Whether a sink is open and writes the archive of items to a file on a disk. -/
def Records (sink : ZipSink) (file : FileId) (items : List Zip.Item) (fs : FileSystem) : Prop :=
  ∃ output, sink.output = some output ∧ output.file = file ∧ output.items = items
    ∧ output.Records fs

/-- A sink whose file was just created on a disk. -/
theorem records_of_createFile {fs fs' : FileSystem} {path : String} (hfiles : WellFormed fs)
    (hcreate : fs.createFile path = .ok (file, fs')) (hdisk : (fs'.data file).medium = .disk) :
    Records ⟨path, some (.start file)⟩ file [] fs' :=
  ⟨.start file, rfl, rfl, rfl, holds_of_createFile hfiles hcreate hdisk, rfl⟩

/-- A sink knows the names of the items that it wrote. -/
theorem contains_iff {output : ZipOutput} (houtput : sink.output = some output)
    (entryName : String) :
    sink.contains entryName = true ↔ entryName ∈ output.items.map Zip.Item.name := by
  rw [contains, houtput]
  simp

/-- A text is saved as one item more, if there is none of its name. -/
theorem Records.save (h : sink.Records file items world.files) (qualifiedName : String)
    {entryName : String} (hnew : ∀ item ∈ items, item.name ≠ entryName) (content : String) :
    ∃ sink' world', TextSink.save sink world qualifiedName entryName content
        = (sink', world', .ok ())
      ∧ sink'.Records file (items ++ [textItem entryName content]) world'.files
      ∧ Refilled world.files world'.files file ∧ world'.handles = world.handles := by
  obtain ⟨output, houtput, rfl, rfl, hrecords⟩ := h
  obtain ⟨output', fs', hadd, hrefilled, hrecords', hfile, hitems⟩ :=
    hrecords.add (textItem entryName content)
  have hcontains : ¬ sink.contains entryName = true := by
    rw [contains_iff houtput, List.mem_map]
    rintro ⟨item, hitem, hname⟩
    exact hnew item hitem hname
  have hsave : sink.save world qualifiedName entryName content
      = ({ sink with output := some output' }, world.withFiles fs', .ok ()) := by
    rw [ZipSink.save, if_neg hcontains, add, houtput]
    dsimp only
    rw [textItem] at hadd
    rw [hadd]
  refine ⟨{ sink with output := some output' }, world.withFiles fs', ?_,
    ⟨output', rfl, hfile, hitems, hrecords'⟩, hrefilled, rfl⟩
  rw [textSink_save, hsave]
  rfl

/-- Another text of the same name is passed over. -/
theorem Records.save_again (h : sink.Records file items world.files) (qualifiedName : String)
    {entryName : String} (hold : ∃ item ∈ items, item.name = entryName) (content : String) :
    ∃ world', TextSink.save sink world qualifiedName entryName content = (sink, world', .ok ())
      ∧ world'.files = world.files ∧ world'.handles = world.handles := by
  obtain ⟨output, houtput, rfl, rfl, hrecords⟩ := h
  have hcontains : sink.contains entryName = true := (contains_iff houtput entryName).2 <| by
    rw [List.mem_map]
    exact hold
  refine ⟨world.record .warn .sink
      s!"Zip entry {entryName} already exists, skipping source of {qualifiedName}", ?_, rfl, rfl⟩
  rw [textSink_save, ZipSink.save, if_pos hcontains]
  rfl

/-- Once the sink is closed, its file is the archive of its items. -/
theorem Records.close (h : sink.Records file items world.files) :
    ∃ sink' world', TextSink.close sink world = (sink', world', .ok ())
      ∧ Holds world'.files file (Zip.encode items [])
      ∧ Refilled world.files world'.files file ∧ world'.handles = world.handles := by
  obtain ⟨output, houtput, rfl, rfl, hrecords⟩ := h
  obtain ⟨fs', hfinish, hrefilled, hholds⟩ := hrecords.finish
  have hclose : sink.close world
      = ({ sink with output := none }, world.withFiles fs', .ok ()) := by
    rw [ZipSink.close, houtput]
    dsimp only
    rw [hfinish]
  refine ⟨{ sink with output := none }, world.withFiles fs', ?_, hholds, hrefilled, rfl⟩
  rw [textSink_close, hclose]
  rfl

end ZipSink

end Reline
