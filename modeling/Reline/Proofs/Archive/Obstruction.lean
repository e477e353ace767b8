/-
  Reline.Proofs.Archive.Obstruction

  Entries that keep writes to others from being persisted.

  When an archive is built anew every entry is opened first, also one that is to
  be copied without being decompressed, and one whose data is to be replaced. An
  entry that is encrypted, or compressed by an unknown method, cannot be opened.
  So one such entry makes every close fail that has anything to persist, whatever
  can be done with the files; without one, and with the records in front of the
  data intact, nothing else in the archive does.

  Main statement: `close_of_canReplace`.
-/

import Reline.Proofs.Archive.Layout

namespace Reline.Archive

open FileSystem Zip

/-! ## Entries that can be opened -/

/-- Whether an entry is of a kind that can be opened. -/
structure IsPlain (e : Entry) : Prop where
  clear : e.encrypted = false
  method : e.method = .stored ∨ e.method = .deflated

/-- Whether an entry is of a kind that cannot be opened, and why. -/
inductive IsOdd (e : Entry) : Zip.Error → Prop where
  | encrypted (encrypted : e.encrypted = true) : IsOdd e .encrypted
  | unknown {code : Nat} (clear : e.encrypted = false) (method : e.method = .other code) :
    IsOdd e .unknownMethod

/-- Whether the first entry of a list that is of no kind that can be opened is refused for a reason.
-/
def FirstOdd (entries : List Entry) (reason : Zip.Error) : Prop :=
  ∃ before e after, entries = before ++ e :: after ∧ (∀ b ∈ before, IsPlain b) ∧ IsOdd e reason

variable {file : Buffer} {entries : List Entry} {reason : Zip.Error}

/-- With the record in front of its data intact, an entry can be opened if its kind can. -/
theorem exists_openIn_iff {e : Entry}
    (hintact : ∃ compressed, e.compressed file = .ok compressed) :
    (∃ compressed, e.openIn file = .ok compressed) ↔ IsPlain e := by
  obtain ⟨compressed, hcompressed⟩ := hintact
  constructor
  · rintro ⟨_, hopens⟩
    obtain ⟨hclear, -, hmethod⟩ := Entry.openIn_eq_ok_iff.1 hopens
    exact ⟨hclear, hmethod⟩
  · intro hplain
    exact ⟨_, Entry.openIn_eq_ok_iff.2 ⟨hplain.clear, hcompressed, hplain.method⟩⟩

theorem openIn_eq_error_iff {e : Entry}
    (hintact : ∃ compressed, e.compressed file = .ok compressed) :
    e.openIn file = .error reason ↔ IsOdd e reason := by
  obtain ⟨compressed, hcompressed⟩ := hintact
  rw [Entry.openIn, hcompressed]
  constructor
  · intro h
    cases hencrypted : e.encrypted with
    | true =>
      rw [hencrypted] at h
      cases h
      exact .encrypted hencrypted
    | false =>
      rw [hencrypted] at h
      cases hmethod : e.method with
      | stored =>
        rw [hmethod] at h
        cases h
      | deflated =>
        rw [hmethod] at h
        cases h
      | other code =>
        rw [hmethod] at h
        cases h
        exact .unknown hencrypted hmethod
  · rintro (hencrypted | ⟨hclear, hmethod⟩)
    · rw [hencrypted]
      rfl
    · rw [hclear, hmethod]
      rfl

theorem refuses_iff_firstOdd
    (hintact : ∀ e ∈ entries, ∃ compressed, e.compressed file = .ok compressed) :
    Handle.Refuses file entries reason ↔ FirstOdd entries reason := by
  refine exists_congr fun before => exists_congr fun e => exists_congr fun after => ?_
  refine and_congr_right fun hentries => ?_
  subst hentries
  rw [List.forall_mem_append, List.forall_mem_cons] at hintact
  obtain ⟨hbefore, he, -⟩ := hintact
  refine and_congr (forall₂_congr fun b hb => ?_) (openIn_eq_error_iff he)
  exact exists_openIn_iff (hbefore b hb)

/-! ## Closing -/

namespace Handle

/-- In an archive that is laid out with writes, each write is read in some entry of its name. -/
theorem LaidOut.exists_read {file' : Buffer} {staged : OrderedTable String Bytes}
    {entries' : List Entry} (h : LaidOut file file' staged entries entries') {name : String}
    {bytes : Bytes} (hstaged : staged.get? name = some bytes) :
    ∃ e ∈ entries', e.name = name ∧ e.read file' = .ok bytes := by
  by_cases hlisted : ∃ e ∈ entries, e.name = name
  · obtain ⟨i, ⟨e, he, hname, hwrite⟩, -⟩ := h.once name bytes hstaged hlisted
    obtain ⟨e', he', hkind, -⟩ := h.kept i e he
    rw [hwrite] at hkind
    exact ⟨e', List.mem_of_getElem? he', hkind.name.trans hname, hkind.read⟩
  · have hwrite : (name, bytes) ∈ unlisted staged entries := by
      refine List.mem_filter.2 ⟨OrderedTable.mem_entries_iff.2 hstaged, ?_⟩
      rw [List.all_eq_true]
      exact fun e he => decide_eq_true fun hname => hlisted ⟨e, he, hname⟩
    obtain ⟨i, hi, hget⟩ := List.mem_iff_getElem.1 hwrite
    have hi' := Nat.lt_of_lt_of_eq hi h.added.length_eq
    have hadded := h.added.get hi hi'
    rw [List.get_eq_getElem, List.get_eq_getElem, hget] at hadded
    exact ⟨_, List.mem_of_mem_drop (List.getElem_mem hi'), hadded.name, hadded.read⟩

/-- Where an archive's file can be replaced and no record in front of an entry's data is damaged, a
close that has something to persist succeeds if and only if every entry is of a kind that can be
opened, and else reports the first one that is not, be it replaced or not. What the entries' data is
does not matter. After a close that succeeded each write is read in an entry of its name, unless a
link stood beside the archive. -/
theorem close_of_canReplace {fs created : FileSystem} {handle : Handle} {source : Source}
    {id : FileId} (hfiles : WellFormed fs) (habsolute : Path.isAbsolute handle.path = true)
    (hopen : handle.source = some source) (hstaged : handle.staged.isEmpty = false)
    (hcan : CanReplace fs handle.path id created)
    (hintact : ∀ e ∈ source.directory.entries,
      ∃ compressed, e.compressed (source.bytes created) = .ok compressed) :
    ((handle.close fs).2.2 = .ok () ↔ ∀ e ∈ source.directory.entries, IsPlain e)
      ∧ (∀ error, (handle.close fs).2.2 = .error error
        ↔ ∃ reason, FirstOdd source.directory.entries reason
          ∧ error = .ofZip (temporaryPath handle.path) reason)
      ∧ ((handle.close fs).2.2 = .ok () →
        (∀ items, rebuiltItems (source.bytes created) source.directory handle.staged = .ok items →
          Reopens items source.directory.comment) →
        (∀ l goal slash, fs.resolve .entry (temporaryPath handle.path)
          ≠ .ok (.found l (.link goal) slash)) →
        ∃ there directory, NamesPlace fs handle.path there
          ∧ (handle.close fs).2.1.node? there = some (.file id)
          ∧ Directory.read ((handle.close fs).2.1.data id).bytes = .ok directory
          ∧ ∀ name bytes, handle.staged.get? name = some bytes →
            ∃ e ∈ directory.entries, e.name = name
              ∧ e.read ((handle.close fs).2.1.data id).bytes = .ok bytes) := by
  rw [close_eq hopen hstaged]
  dsimp only
  refine ⟨?_, fun error => ?_, fun hclose hreopens hlink => ?_⟩
  · rw [hcan.flush_eq_ok_iff, exists_rebuilt_iff]
    exact forall₂_congr fun e he => exists_openIn_iff (hintact e he)
  · rw [hcan.flush_eq_error_iff]
    refine exists_congr fun reason => and_congr_left fun _ => ?_
    rw [rebuilt_eq_error_iff, refuses_iff_firstOdd hintact]
  · -- the new archive is read back as it was laid out, and each write is somewhere in it
    obtain ⟨bytes, hrebuilt⟩ := hcan.flush_eq_ok_iff.1 hclose
    obtain ⟨there, hnames, hnode, hbytes⟩ :=
      exists_placed_of_canReplace hfiles habsolute hcan hlink hrebuilt
    obtain ⟨items, hitems, rfl⟩ := rebuilt_eq_ok_iff.1 hrebuilt
    obtain ⟨entries, hread, hpresents⟩ := hreopens items hitems
    rw [← hbytes] at hread hpresents
    exact ⟨there, _, hnames, hnode, hread, fun name bytes hwrite =>
      (laidOut_of_presents hitems hpresents).exists_read hwrite⟩

/-! ## An archive with an entry of an unknown method -/

/-- A stored item and one of a method that is unknown. -/
def oddItems : List Item :=
  [.ofData "a" .stored 33 0 defaultMode [1],
    { name := "x", method := .other 12, date := 33, time := 0, mode := defaultMode, crc := 0,
      compressedSize := 1, size := 1, compressed := [0] }]

def oddFiles : FileSystem :=
  { nodes := [(["lib.jar"], .file 0)]
    files := #[⟨(Zip.encode oddItems []).toArray, 0o644, .disk⟩]
    current := [] }

/-- The archive as it is opened. -/
def oddSource : Source :=
  ⟨0, (oddFiles.data 0).bytes.size, ⟨[oddItems[0].entry 0, oddItems[1].entry 32], []⟩⟩

/-- A handle of the archive with a write to the entry that is stored. -/
def oddHandle : Handle :=
  ⟨"/lib.jar", some oddSource, .ofList [("a", [2])]⟩

theorem openAt_oddFiles :
    openAt oddFiles "/lib.jar" = .ok ⟨"/lib.jar", some oddSource, ∅⟩ := by
  have hfile : oddFiles.openFile "/lib.jar" = .ok (some 0) := rfl
  have hread : Directory.read (oddFiles.data 0).bytes = .ok oddSource.directory := by
    decide +kernel
  exact openAt_eq_ok_iff.2 ⟨0, _, hfile, rfl, hread, rfl⟩

theorem wellFormed_oddFiles : WellFormed oddFiles :=
  wellFormed_of_forall (by simp [oddFiles]) (by simp [oddFiles])

theorem canReplace_oddHandle :
    CanReplace oddFiles oddHandle.path oddFiles.files.size
      (oddFiles.grow ["lib.jar.tmp"] ⟨#[], newFileMode, .disk⟩) := by
  have hplace : oddFiles.resolve .entry oddHandle.path = .ok (.found ["lib.jar"] (.file 0) false)
      ∧ oddFiles.resolve .entry (temporaryPath oddHandle.path) = .ok (.vacant ["lib.jar.tmp"] false)
      ∧ oddFiles.resolve .create (temporaryPath oddHandle.path)
        = .ok (.vacant ["lib.jar.tmp"] false)
      ∧ oddFiles.mode oddHandle.path = .ok 0o644 :=
    ⟨rfl, rfl, rfl, rfl⟩
  obtain ⟨hplace, hbeside, hcreate, hmode⟩ := hplace
  exact canReplace_of_found wellFormed_oddFiles rfl hcreate hbeside hplace nofun hmode

theorem compressed_oddItems {e : Entry} (he : e ∈ oddSource.directory.entries) :
    ∃ compressed, e.compressed (oddSource.bytes oddFiles) = .ok compressed := by
  rcases List.mem_pair.1 he with rfl | rfl
  · exact ⟨[1], by decide +kernel⟩
  · exact ⟨[0], by decide +kernel⟩

theorem compressed_pairedItems {e : Entry} (he : e ∈ pairedSource.directory.entries) :
    ∃ compressed, e.compressed (pairedSource.bytes pairedFiles) = .ok compressed := by
  rcases List.mem_pair.1 he with rfl | rfl
  · exact ⟨[1], by decide +kernel⟩
  · exact ⟨[3], by decide +kernel⟩

/-- The entry of the unknown method, which is not written, keeps the write to the other one from
being persisted; where all entries are plain, the writes are persisted. -/
theorem close_oddHandle_and_pairedHandle :
    openAt oddFiles "/lib.jar" = .ok ⟨"/lib.jar", some oddSource, ∅⟩
      ∧ (oddHandle.close oddFiles).2.2 = .error (.ofZip "/lib.jar.tmp" .unknownMethod)
      ∧ (pairedHandle.close pairedFiles).2.2 = .ok ()
      ∧ ∃ directory,
        Directory.read ((pairedHandle.close pairedFiles).2.1.data 1).bytes = .ok directory
        ∧ ∃ e ∈ directory.entries, e.name = "c"
          ∧ e.read ((pairedHandle.close pairedFiles).2.1.data 1).bytes = .ok [8] := by
  have hodd := close_of_canReplace wellFormed_oddFiles rfl
    (rfl : oddHandle.source = some oddSource) rfl canReplace_oddHandle
    fun e he => by
      rw [bytes_grow (by decide)]
      exact compressed_oddItems he
  have hplain := close_of_canReplace wellFormed_pairedFiles rfl
    (rfl : pairedHandle.source = some pairedSource) rfl canReplace_pairedHandle
    fun e he => by
      rw [bytes_grow (by decide)]
      exact compressed_pairedItems he
  have htemporary : temporaryPath "/lib.jar" = "/lib.jar.tmp" := by decide
  have hrefused : FirstOdd oddSource.directory.entries .unknownMethod :=
    ⟨[_], _, [], rfl, List.forall_mem_singleton.2 ⟨rfl, .inl rfl⟩, .unknown rfl rfl⟩
  have hclose : (pairedHandle.close pairedFiles).2.2 = .ok () := by
    refine hplain.1.2 fun e he => ?_
    rcases List.mem_pair.1 he with rfl | rfl <;> exact ⟨rfl, .inl rfl⟩
  obtain ⟨-, directory, -, -, hread, hwritten⟩ := hplain.2.2 hclose
    (fun items => reopens_of_pairedHandle) fun l goal slash hfound => by
      cases resolve_pairedFiles.2.1.symm.trans hfound
  exact ⟨openAt_oddFiles, (hodd.2.1 _).2 ⟨_, hrefused, by rw [← htemporary]; rfl⟩, hclose,
    directory, hread, hwritten "c" [8] rfl⟩

end Handle

end Reline.Archive
