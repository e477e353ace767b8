/-
  Reline.Proofs.Sink.Texts

  The texts in a zip sink's archive.

  Of the texts that a sink gets under one name it keeps the first, and the archive
  lists the names in the order in which they came. On a disk it takes every text
  until it is closed, and the archive is complete when it is closed or given up.
  Afterwards texts are refused and the archive stays as it is.

  On other media, and with any writer that may fail, a name counts as taken from
  the moment when its entry was written, and not before.

  Main statement: `ZipSink.keepsTexts`.
-/

import Reline.Proofs.Archive.Listing
import Reline.Proofs.FileSystem.Making
import Reline.Proofs.Sink.Writing
import Reline.Proofs.Zip.Reopening

namespace Reline

open FileSystem

/-! ## First texts -/

/-- The texts that a sink gets before it is closed, with their names. -/
def textsOf : List SinkCall → List (String × String)
  | .save _ entryName content :: calls => (entryName, content) :: textsOf calls
  | .close :: _ | [] => []

/-- Each name once, in the order in which they came first, with the text that came first. -/
def firstTexts (texts : List (String × String)) : List (String × String) :=
  (texts.map Prod.fst).eraseDups.map fun name => (name, (texts.lookup name).getD "")

/-- The entries of texts. -/
def textItems (texts : List (String × String)) : List Zip.Item :=
  texts.map fun text => textItem text.1 text.2

theorem textsOf_append_of_open {calls : List SinkCall} (h : .close ∉ calls)
    (later : List SinkCall) : textsOf (calls ++ later) = textsOf calls ++ textsOf later := by
  induction calls with
  | nil => rfl
  | cons call calls ih =>
    cases call with
    | save qualifiedName entryName content =>
      rw [List.cons_append, textsOf, ih fun hmem => h (List.mem_cons_of_mem _ hmem)]
      rfl
    | close => exact absurd (List.mem_cons_self ..) h

theorem textsOf_append_of_closed {calls : List SinkCall} (h : .close ∈ calls)
    (later : List SinkCall) : textsOf (calls ++ later) = textsOf calls := by
  induction calls with
  | nil => contradiction
  | cons call calls ih =>
    cases call with
    | save qualifiedName entryName content =>
      rcases List.mem_cons.1 h with heq | hmem
      · contradiction
      · rw [List.cons_append, textsOf, ih hmem]
        rfl
    | close => rfl

theorem names_firstTexts (texts : List (String × String)) :
    (firstTexts texts).map Prod.fst = (texts.map Prod.fst).eraseDups := by
  rw [firstTexts, List.map_map]
  exact List.map_id' _

/-- What comes behind a text of a name is not looked up under the name. -/
theorem lookup_append_of_mem {texts : List (String × String)} {name : String}
    (h : name ∈ texts.map Prod.fst) (later : List (String × String)) :
    (texts ++ later).lookup name = texts.lookup name := by
  rw [List.lookup_append]
  cases hlookup : texts.lookup name with
  | some content => rfl
  | none =>
    obtain ⟨text, htext, rfl⟩ := List.mem_map.1 h
    simpa using List.lookup_eq_none_iff.1 hlookup text htext

/-- A text of a name that came before is passed over. -/
theorem firstTexts_concat_of_mem {texts : List (String × String)} {name : String}
    (h : name ∈ texts.map Prod.fst) (content : String) :
    firstTexts (texts ++ [(name, content)]) = firstTexts texts := by
  have hnames : ((texts ++ [(name, content)]).map Prod.fst).eraseDups
      = (texts.map Prod.fst).eraseDups := by
    rw [List.map_append, List.eraseDups_append]
    simp [List.removeAll, h]
  rw [firstTexts, hnames]
  refine List.map_congr_left fun other hother => ?_
  rw [lookup_append_of_mem (List.mem_eraseDups.1 hother)]

/-- A text of a new name comes behind the others. -/
theorem firstTexts_concat_of_not_mem {texts : List (String × String)} {name : String}
    (h : name ∉ texts.map Prod.fst) (content : String) :
    firstTexts (texts ++ [(name, content)]) = firstTexts texts ++ [(name, content)] := by
  have hnames : ((texts ++ [(name, content)]).map Prod.fst).eraseDups
      = (texts.map Prod.fst).eraseDups ++ [name] := by
    rw [List.map_append, List.eraseDups_append]
    simp [List.removeAll, List.eraseDups_cons, h]
  have hlookup : (texts ++ [(name, content)]).lookup name = some content := by
    have hnone : texts.lookup name = none :=
      List.lookup_eq_none_iff.2 fun text htext =>
        bne_iff_ne.2 fun heq => h (heq ▸ List.mem_map_of_mem htext)
    rw [List.lookup_append, hnone]
    simp
  rw [firstTexts, hnames, List.map_append, List.map_singleton, hlookup]
  refine congrArg (· ++ _) (List.map_congr_left fun other hother => ?_)
  rw [lookup_append_of_mem (List.mem_eraseDups.1 hother)]

/-! ## Archives of texts -/

/-- Whether texts keep to the limits of the format, each by itself and in one archive. -/
structure Archivable (texts : List (String × String)) : Prop where
  name : ∀ text ∈ texts, (Text.Utf8.encode text.1).length < 2 ^ 16
  content : ∀ text ∈ texts, (Text.Utf8.encode text.2).length < 2 ^ 32
  count : texts.length < 2 ^ 16
  size : (Zip.encode (textItems texts) []).length < 2 ^ 32

theorem Archivable.fits {texts : List (String × String)} (h : Archivable texts) :
    Zip.Fits (textItems texts) [] where
  fits item hitem := by
    obtain ⟨text, htext, rfl⟩ := List.mem_map.1 hitem
    exact Zip.fits_ofData (h.name text htext) (.inr rfl) (by decide) (by decide) (by decide)
      (h.content text htext)
  count := by
    rw [textItems, List.length_map]
    exact h.count
  place := by
    refine Nat.lt_of_le_of_lt ?_ h.size
    rw [Zip.encode, List.length_append]
    exact Nat.le_add_right ..
  directory := by
    refine Nat.lt_of_le_of_lt ?_ h.size
    rw [Zip.encode, Zip.encodeTail, List.length_append, List.length_append]
    omega
  comment_length := by decide
  last i hi hlength := absurd hi (by simpa using hlength)

/-- Whether the file at a path is the archive of texts. If they keep to the limits of the format,
the path opens the archive, all entries of which are deflated, and it lists the texts. -/
def ArchivesAt (fs : FileSystem) (path : String) (texts : List (String × String)) : Prop :=
  ∃ file, fs.openFile path = .ok (some file)
    ∧ (fs.data file).bytes = (Zip.encode (textItems texts) []).toArray
    ∧ (Archivable texts → ∃ directory length,
      Archive.Handle.openAt fs path = .ok ⟨path, some ⟨file, length, directory⟩, ∅⟩
        ∧ (∀ e ∈ directory.entries, e.method = .deflated)
        ∧ Archive.Source.listing ⟨file, length, directory⟩ fs
          = texts.map fun text => (text.1, .ok (Text.Utf8.encode text.2)))

/-- The entries of texts are deflated. -/
theorem deflated_of_presents {file : Buffer} {items : List Zip.Item} {entries : List Zip.Entry}
    (h : List.Forall₂ (Zip.Presents file) items entries)
    (hitems : ∀ item ∈ items, item.method = .deflated) : ∀ e ∈ entries, e.method = .deflated := by
  induction h with
  | nil => exact nofun
  | cons hpresents _ ih =>
    obtain ⟨hitem, hrest⟩ := List.forall_mem_cons.1 hitems
    obtain ⟨offset, rfl⟩ := hpresents.entry
    exact List.forall_mem_cons.2 ⟨hitem, ih hrest⟩

theorem archivesAt_of_holds {fs : FileSystem} {path : String} {file : FileId}
    {texts : List (String × String)} (hopen : fs.openFile path = .ok (some file))
    (hholds : Holds fs file (Zip.encode (textItems texts) [])) : ArchivesAt fs path texts := by
  have hbytes : (fs.data file).bytes = (Zip.encode (textItems texts) []).toArray := by
    rw [← hholds.bytes, Array.toArray_toList]
  refine ⟨file, hopen, hbytes, fun harchivable => ?_⟩
  obtain ⟨entries, hread, hpresents⟩ := Zip.reopens_of_fits harchivable.fits
  rw [← hbytes] at hread hpresents
  refine ⟨⟨entries, []⟩, (fs.data file).bytes.size, ?_, ?_, ?_⟩
  · rw [Archive.Handle.openAt_eq_ok_iff]
    exact ⟨file, _, hopen, hholds.disk, hread, rfl⟩
  · refine deflated_of_presents hpresents fun item hitem => ?_
    obtain ⟨text, -, rfl⟩ := List.mem_map.1 hitem
    rfl
  · rw [Archive.Source.listing]
    dsimp only
    rw [Archive.map_read_of_presents hpresents, textItems, List.map_map]
    refine List.map_congr_left fun text _ => ?_
    exact Prod.ext rfl (Zip.content_new ..)

/-! ## Calls on a disk -/

namespace ZipSink

variable {sink : ZipSink} {base : FileSystem} {there : Location} {path : String} {file : FileId}
  {calls : List SinkCall} {use : InUse ZipSink}

/-- What a sink leaves that is given up: if it is still open its archive is completed as if it were
closed, and nobody learns whether that succeeds. -/
def drop (sink : ZipSink) (world : World) : World :=
  (sink.close world).2.1

theorem save_of_closed (h : sink.output = none) (world : World)
    (qualifiedName entryName content : String) :
    TextSink.save sink world qualifiedName entryName content
      = (sink, world, .error (Error.closed sink.path).failure) := by
  obtain ⟨path, output⟩ := sink
  cases h
  rfl

theorem close_of_closed (h : sink.output = none) (world : World) :
    TextSink.close sink world = (sink, world, .ok ()) := by
  obtain ⟨path, output⟩ := sink
  cases h
  rfl

theorem output_close (sink : ZipSink) (world : World) :
    (TextSink.close sink world).1.output = none := by
  rw [textSink_close, ZipSink.close]
  cases houtput : sink.output with
  | none => exact houtput
  | some output =>
    dsimp only
    split
    · rfl
    · split <;> rfl

theorem path_answer (use : InUse ZipSink) (call : SinkCall) :
    (use.answer call).1.path = use.sink.path := by
  cases call with
  | save qualifiedName entryName content =>
    rw [InUse.answer, textSink_save, ZipSink.save]
    split
    · rfl
    · rw [add]
      cases use.sink.output with
      | none => rfl
      | some output =>
        dsimp only
        split <;> rfl
  | close =>
    rw [InUse.answer, textSink_close, ZipSink.close]
    cases use.sink.output with
    | none => rfl
    | some output =>
      dsimp only
      split
      · rfl
      · split <;> rfl

/-- How a sink stands after calls, given the place of its file, which was created on a disk. -/
structure Stands (base : FileSystem) (there : Location) (path : String) (file : FileId)
    (calls : List SinkCall) (use : InUse ZipSink) : Prop where
  path : use.sink.path = path
  filled : Filled base use.world.files there file
  isOpen : .close ∉ calls →
    use.sink.Records file (textItems (firstTexts (textsOf calls))) use.world.files
  isClosed : .close ∈ calls → use.sink.output = none
    ∧ Holds use.world.files file (Zip.encode (textItems (firstTexts (textsOf calls))) [])

/-- The items of a sink have the names of the texts that it got. -/
theorem exists_name_iff (texts : List (String × String)) (entryName : String) :
    (∃ item ∈ textItems (firstTexts texts), item.name = entryName)
      ↔ entryName ∈ texts.map Prod.fst := by
  have hnames :
      (textItems (firstTexts texts)).map Zip.Item.name = (texts.map Prod.fst).eraseDups := by
    rw [← names_firstTexts, textItems, List.map_map]
    rfl
  rw [← List.mem_map, hnames, List.mem_eraseDups]

/-- A text is taken, and kept if it is the first of its name. -/
theorem Stands.save (h : Stands base there path file calls use) (hopen : .close ∉ calls)
    (qualifiedName entryName content : String) :
    (use.answer (.save qualifiedName entryName content)).2.2 = .ok ()
      ∧ Stands base there path file (calls ++ [.save qualifiedName entryName content])
        (use.call (.save qualifiedName entryName content)) := by
  have hpath := (path_answer use (.save qualifiedName entryName content)).trans h.path
  have hopen' : .close ∉ calls ++ [.save qualifiedName entryName content] := by simpa using hopen
  have htexts : textsOf (calls ++ [.save qualifiedName entryName content])
      = textsOf calls ++ [(entryName, content)] := textsOf_append_of_open hopen _
  have hrecords := h.isOpen hopen
  by_cases hold : entryName ∈ (textsOf calls).map Prod.fst
  · obtain ⟨world', hsave, hfiles, -⟩ :=
      hrecords.save_again qualifiedName ((exists_name_iff _ _).2 hold) content
    have hanswer : use.answer (.save qualifiedName entryName content)
        = (use.sink, world', .ok ()) := hsave
    refine ⟨by rw [hanswer], hpath, ?_, fun _ => ?_, fun hmem => absurd hmem hopen'⟩
    · rw [InUse.call, hanswer]
      exact hfiles ▸ h.filled
    · rw [InUse.call, hanswer, htexts, firstTexts_concat_of_mem hold]
      exact hfiles ▸ hrecords
  · have hnew : ∀ item ∈ textItems (firstTexts (textsOf calls)), item.name ≠ entryName :=
      fun item hitem hname => hold ((exists_name_iff _ _).1 ⟨item, hitem, hname⟩)
    obtain ⟨sink', world', hsave, hrecords', hrefilled, -⟩ :=
      hrecords.save qualifiedName hnew content
    have hanswer : use.answer (.save qualifiedName entryName content)
        = (sink', world', .ok ()) := hsave
    refine ⟨by rw [hanswer], hpath, ?_, fun _ => ?_, fun hmem => absurd hmem hopen'⟩
    · rw [InUse.call, hanswer]
      exact h.filled.of_refilled hrefilled
    · rw [InUse.call, hanswer, htexts, firstTexts_concat_of_not_mem hold, textItems,
        List.map_append]
      exact hrecords'

/-- The archive is completed when the sink is closed. -/
theorem Stands.close (h : Stands base there path file calls use) (hopen : .close ∉ calls) :
    (use.answer .close).2.2 = .ok ()
      ∧ Stands base there path file (calls ++ [.close]) (use.call .close) := by
  have hpath := (path_answer use .close).trans h.path
  have hmem : .close ∈ calls ++ [SinkCall.close] :=
    List.mem_append_right _ (List.mem_singleton_self _)
  have htexts : textsOf (calls ++ [.close]) = textsOf calls := by
    rw [textsOf_append_of_open hopen]
    exact List.append_nil _
  obtain ⟨sink', world', hclose, hholds, hrefilled, -⟩ := (h.isOpen hopen).close
  have hanswer : use.answer .close = (sink', world', .ok ()) := hclose
  have houtput : sink'.output = none := by
    have hnone := output_close use.sink use.world
    rwa [hclose] at hnone
  refine ⟨by rw [hanswer], hpath, ?_, fun hopen' => absurd hmem hopen', fun _ => ?_⟩
  · rw [InUse.call, hanswer]
    exact h.filled.of_refilled hrefilled
  · rw [InUse.call, hanswer, htexts]
    exact ⟨houtput, hholds⟩

/-- A closed sink changes nothing. -/
theorem Stands.answer_of_closed (h : Stands base there path file calls use)
    (hclosed : .close ∈ calls) (call : SinkCall) :
    use.answer call = (use.sink, use.world,
      match call with
      | .save .. => .error (Error.closed path).failure
      | .close => .ok ()) := by
  obtain ⟨houtput, -⟩ := h.isClosed hclosed
  cases call with
  | save qualifiedName entryName content =>
    rw [InUse.answer, save_of_closed houtput, h.path]
  | close => rw [InUse.answer, close_of_closed houtput]

theorem Stands.call (h : Stands base there path file calls use) (call : SinkCall) :
    Stands base there path file (calls ++ [call]) (use.call call) := by
  by_cases hclosed : .close ∈ calls
  · have hmem : .close ∈ calls ++ [call] := List.mem_append_left _ hclosed
    rw [InUse.call, h.answer_of_closed hclosed]
    refine ⟨h.path, h.filled, fun hopen => absurd hmem hopen, fun _ => ?_⟩
    rw [textsOf_append_of_closed hclosed]
    exact h.isClosed hclosed
  · cases call with
    | save qualifiedName entryName content => exact (h.save hclosed ..).2
    | close => exact (h.close hclosed).2

/-- What creating a sink does: the directories above its file are created, and then the file. -/
theorem exists_of_create {fs fs' : FileSystem} (h : create fs path = (fs', .ok sink)) :
    ∃ made file, (made = fs ∨ ∃ above, made = (fs.createDirectories above).1)
      ∧ made.createFile path = .ok (file, fs') ∧ sink = ⟨path, some (.start file)⟩ := by
  rw [create] at h
  split at h
  case h_1 => cases h
  case h_2 made hmade =>
    have hwhere : made = fs ∨ ∃ above, made = (fs.createDirectories above).1 := by
      split at hmade
      case h_1 =>
        cases hmade
        exact .inl rfl
      case h_2 above hparent =>
        rcases hdirectories : fs.createDirectories above with ⟨made', e | done⟩
        · rw [hdirectories] at hmade
          cases hmade
        · rw [hdirectories] at hmade
          cases hmade
          exact .inr ⟨above, by rw [hdirectories]⟩
    cases hfile : made.createFile path with
    | error e =>
      rw [hfile] at h
      cases h
    | ok pair =>
      rw [hfile] at h
      cases h
      exact ⟨made, pair.1, hwhere, hfile, rfl⟩

/-- A sink that was created on a disk stands open, and its path leads to its file. -/
theorem exists_stands_of_create {world : World} {fs : FileSystem} (hfiles : WellFormed world.files)
    (hcreate : create world.files path = (fs, .ok sink))
    (hdisk : ∀ output, sink.output = some output → (fs.data output.file).medium = .disk) :
    ∃ base there file, Stands base there path file [] ⟨sink, world.withFiles fs, []⟩
      ∧ ∀ fs', Filled base fs' there file → fs'.openFile path = .ok (some file) := by
  obtain ⟨made, file, hmade, hfile, rfl⟩ := exists_of_create hcreate
  have hwellFormed : WellFormed made := by
    rcases hmade with rfl | ⟨above, rfl⟩
    · exact hfiles
    · exact wellFormed_createDirectories hfiles above
  obtain ⟨there, hcreates⟩ := exists_creates hwellFormed hfile
  refine ⟨made, there, file, ⟨rfl, hcreates.filled, fun _ => ?_, fun hmem => ?_⟩,
    fun fs' hfilled' => ?_⟩
  · exact records_of_createFile hwellFormed hfile (hdisk _ rfl)
  · contradiction
  · exact openFile_eq_ok_some_iff.2 ⟨there, hcreates.inspect hfilled'⟩

/-- What is to be expected of a sink behind calls. -/
structure KeepsTexts (path : String) (calls : List SinkCall) (use : InUse ZipSink) : Prop where
  /-- Until it is closed, it takes any text. -/
  saves : .close ∉ calls → ∀ qualifiedName entryName content,
    (use.answer (.save qualifiedName entryName content)).2.2 = .ok ()
  /-- Then it refuses texts and changes nothing. -/
  refuses : .close ∈ calls → ∀ qualifiedName entryName content,
    use.answer (.save qualifiedName entryName content)
      = (use.sink, use.world, .error (Error.closed path).failure)
  /-- It can be closed. -/
  closes : (use.answer .close).2.2 = .ok ()
  /-- Closing it once more changes nothing. -/
  closesAgain : .close ∈ calls → use.answer .close = (use.sink, use.world, .ok ())
  /-- Nor does giving it up when it is closed. -/
  drops : .close ∈ calls → use.sink.drop use.world = use.world
  /-- When it is given up, its archive has the first text of each name that it got. -/
  archives : ArchivesAt (use.sink.drop use.world).files path (firstTexts (textsOf calls))

theorem Stands.expected (h : Stands base there path file calls use)
    (hleads : ∀ fs', Filled base fs' there file → fs'.openFile path = .ok (some file)) :
    KeepsTexts path calls use := by
  have hdrop : use.sink.drop use.world = (use.answer .close).2.1 := rfl
  by_cases hclosed : .close ∈ calls
  · have hclose : use.answer .close = (use.sink, use.world, .ok ()) :=
      h.answer_of_closed hclosed .close
    rw [hclose] at hdrop
    refine ⟨fun hopen => absurd hclosed hopen, fun _ _ _ _ => h.answer_of_closed hclosed _,
      by rw [hclose], fun _ => hclose, fun _ => hdrop, ?_⟩
    rw [hdrop]
    exact archivesAt_of_holds (hleads _ h.filled) (h.isClosed hclosed).2
  · obtain ⟨hok, hstands⟩ := h.close hclosed
    refine ⟨fun _ qualifiedName entryName content => (h.save hclosed ..).1,
      fun hmem => absurd hmem hclosed, hok, fun hmem => absurd hmem hclosed,
      fun hmem => absurd hmem hclosed, ?_⟩
    have hholds := (hstands.isClosed (List.mem_append_right _ (List.mem_singleton_self _))).2
    have htexts : textsOf (calls ++ [.close]) = textsOf calls := by
      rw [textsOf_append_of_open hclosed]
      exact List.append_nil _
    rw [htexts] at hholds
    rw [hdrop]
    exact archivesAt_of_holds (hleads _ hstands.filled) hholds

/-- On a disk a new zip sink takes texts until it is closed, and its archive has the first text of
each name in the order in which the names came, whether it is closed or given up; afterwards nothing
changes any more. On any medium it does what a sink of entries does with its writer. And whenever
the calls of a writer fail, a sink of entries has noted at each moment the names of just those
entries that were written, takes a text only if its name was written by then, and does not pass over
a name that could not be written. -/
theorem keepsTexts :
    (∀ (world : World) (path : String) (fs : FileSystem) (sink : ZipSink),
      WellFormed world.files → create world.files path = (fs, .ok sink) →
      (∀ output, sink.output = some output → (fs.data output.file).medium = .disk) →
        ∀ calls, KeepsTexts path calls
          ((⟨sink, world.withFiles fs, []⟩ : InUse ZipSink).after calls))
      ∧ (∀ (path : String) (file : FileId) (world : World) (calls : List SinkCall),
        ((⟨.new path ⟨.start file, none⟩, world, []⟩ : InUse (EntrySink ZipWriter)).after
            calls).world
          = ((⟨⟨path, some (.start file)⟩, world, []⟩ : InUse ZipSink).after calls).world
        ∧ ((⟨.new path ⟨.start file, none⟩, world, []⟩ : InUse (EntrySink ZipWriter)).after
            calls).answers
          = ((⟨⟨path, some (.start file)⟩, world, []⟩ : InUse ZipSink).after calls).answers)
      ∧ ∀ (ω : Type) [EntryWriter ω] (path : String) (writer : ω) (world : World)
        (calls : List SinkCall) (use : InUse (EntrySink (Accounted ω))),
        (⟨.new path (.new writer), world, []⟩ : InUse (EntrySink (Accounted ω))).after calls = use →
          (⟨.new path writer, world, []⟩ : InUse (EntrySink ω)).after calls
              = ⟨use.sink.plain, use.world, use.answers⟩
            ∧ EntrySink.Accounts calls use
            ∧ ∀ qualifiedName entryName content, EntrySink.Truthful use.sink entryName content
              (use.answer (.save qualifiedName entryName content)).1
              (use.answer (.save qualifiedName entryName content)).2.2 := by
  refine ⟨fun world path fs sink hfiles hcreate hdisk calls => ?_,
    fun path file world calls => ?_, fun ω _ path writer world calls use huse => ?_⟩
  · obtain ⟨base, there, file, hstands, hleads⟩ := exists_stands_of_create hfiles hcreate hdisk
    -- the induction is on the calls, and each keeps what is known of the sink
    exact (InUse.after_induction hstands (fun _ _ last h => h.call last) calls).expected hleads
  · have his : SameAs ⟨path, some (.start file)⟩ (.new path ⟨.start file, none⟩) :=
      sameAs_opened rfl
    exact (his.after world [] calls).2
  · have haccounts := EntrySink.accounts_after path writer world calls
    rw [huse] at haccounts
    refine ⟨?_, haccounts, fun qualifiedName entryName content =>
      EntrySink.truthful_save haccounts.written ..⟩
    rw [← huse]
    exact EntrySink.after_plain ⟨.new path (.new writer), world, []⟩ calls

/-! ## Three texts, and a writer that fails twice -/

/-- A writer whose next calls succeed or fail as it is told, and which then never fails. -/
structure Scripted where
  script : List Bool

/-- Its answer to the next call. -/
def Scripted.next (writer : Scripted) (world : World) : Scripted × World × Except Failure Unit :=
  match writer.script with
  | [] => (writer, world, .ok ())
  | succeeds :: script =>
    (⟨script⟩, world, if succeeds then .ok () else .error (.ofText "no space"))

instance : EntryWriter Scripted where
  start writer world _ := writer.next world
  write writer world _ := writer.next world
  finish := Scripted.next
  flush := Scripted.next

/-- The world of an empty disk. -/
def emptyWorld : World := .ofFiles ⟨[], #[], []⟩

/-- Two texts of one name and one of another, and one that comes too late. -/
def someCalls : List SinkCall :=
  [.save "A" "A.java" "class A", .save "B" "B.java" "class B", .save "A" "A.java" "class A2",
    .close, .save "C" "C.java" "class C"]

/-- A sink that is refused an entry, then its data, and then gets both. -/
def refusedSink : InUse (EntrySink (Accounted Scripted)) :=
  (⟨.new "out.zip" (.new ⟨[false, true, false]⟩), emptyWorld, []⟩ :
    InUse (EntrySink (Accounted Scripted))).after
      [.save "A" "A.java" "class A", .save "A" "A.java" "class A", .save "A" "A.java" "class A2",
        .save "A" "A.java" "class A3"]

/-- On a disk the archive has the first of two texts of a name. With a writer that fails for the
first two, it has the third. -/
theorem keepsTexts_someCalls :
    firstTexts (textsOf someCalls) = [("A.java", "class A"), ("B.java", "class B")]
      ∧ KeepsTexts "out.zip" someCalls
        ((⟨⟨"out.zip", some (.start 0)⟩, emptyWorld.withFiles
          (emptyWorld.files.grow ["out.zip"] ⟨#[], newFileMode, .disk⟩), []⟩ :
            InUse ZipSink).after someCalls)
      ∧ EntrySink.Accounts
        [.save "A" "A.java" "class A", .save "A" "A.java" "class A", .save "A" "A.java" "class A2",
          .save "A" "A.java" "class A3"] refusedSink
      ∧ refusedSink.answers.map Except.toBool = [false, false, true, true]
      ∧ refusedSink.sink.writer.entries = [("A.java", Text.Utf8.encode "class A2")]
      ∧ refusedSink.sink.writer.tried = ["A.java", "A.java", "A.java"] := by
  have hfiles : WellFormed emptyWorld.files := wellFormed_of_forall nofun nofun
  have hcreate : create emptyWorld.files "out.zip"
      = (emptyWorld.files.grow ["out.zip"] ⟨#[], newFileMode, .disk⟩,
        .ok ⟨"out.zip", some (.start 0)⟩) := by
    have hparent : Path.parent "out.zip" = some "" := by decide +kernel
    have hvacant :
        emptyWorld.files.resolve .create "out.zip" = .ok (.vacant ["out.zip"] false) := by
      decide +kernel
    rw [create, hparent]
    dsimp only [createDirectories, createDirectoriesWithin]
    rw [if_pos rfl]
    dsimp only
    rw [createFile_of_vacant hvacant]
    rfl
  refine ⟨by decide +kernel, ?_, ?_, by decide +kernel, by decide +kernel, by decide +kernel⟩
  · exact keepsTexts.1 emptyWorld "out.zip" _ _ hfiles hcreate
      (fun output houtput => by cases houtput; decide +kernel) someCalls
  · exact (keepsTexts.2.2 Scripted "out.zip" ⟨[false, true, false]⟩ emptyWorld _ _ rfl).2.1

end ZipSink

end Reline
