/-
  Reline.Proofs.Archive.Layout

  The layout of an archive that was built anew.

  Each entry keeps its position. Of the entries of one name the first one takes
  the write to that name, and keeps its date, its permissions, and whether it was
  stored; all others are copied without being decompressed. The writes to names
  that are not listed follow in the order of the names' bytes.

  Main statement: `exists_laidOut_of_close`.
-/

import Reline.Proofs.Archive.Handle
import Reline.Proofs.Archive.Replacing
import Reline.Proofs.Text.Utf8
import Reline.Proofs.Zip.FixedCodes
import Reline.Proofs.Zip.Reopening

namespace Reline

namespace Zip

/-- The permission bits in the attributes of an entry. -/
def Entry.permissions (e : Entry) : Nat := (e.attributes >>> 16) &&& 0o777

end Zip

namespace Archive

open FileSystem Zip

namespace Handle

variable {file file' : Buffer} {staged left : OrderedTable String Bytes} {entries : List Entry}
  {items : List Item}

/-! ## Which entry takes a write -/

/-- The write that an entry takes: it is staged under its name, and no entry in front of the
position has that name. -/
def writeAt (staged : OrderedTable String Bytes) (entries : List Entry) (position : Nat)
    (name : String) : Option Bytes :=
  if ∃ e ∈ entries.take position, e.name = name then none else staged.get? name

/-- The writes to names that are not listed. -/
def unlisted (staged : OrderedTable String Bytes) (entries : List Entry) : List (String × Bytes) :=
  staged.entries.filter fun write => entries.all fun e => e.name ≠ write.1

/-- The item that an entry becomes. -/
def itemOf (e : Entry) (compressed : Bytes) : Option Bytes → Item
  | some bytes => replacement e bytes
  | none => .ofEntry e compressed

theorem writeAt_zero (staged : OrderedTable String Bytes) (entries : List Entry) (name : String) :
    writeAt staged entries 0 name = staged.get? name := by
  rw [writeAt, List.take_zero, if_neg]
  rintro ⟨e, he, -⟩
  exact absurd he List.not_mem_nil

theorem writeAt_cons (staged : OrderedTable String Bytes) (e : Entry) (entries : List Entry)
    (i : Nat) (name : String) :
    writeAt staged (e :: entries) (i + 1) name
      = if e.name = name then none else writeAt staged entries i name := by
  rw [writeAt, writeAt, List.take_succ_cons]
  simp only [List.exists_mem_cons_iff]
  by_cases hname : e.name = name
  · rw [if_pos (.inl hname), if_pos hname]
  · simp only [hname, false_or, if_false]

theorem writeAt_erase (staged : OrderedTable String Bytes) (entries : List Entry) (i : Nat)
    (key name : String) :
    writeAt (staged.erase key) entries i name
      = if key = name then none else writeAt staged entries i name := by
  rw [writeAt, writeAt, OrderedTable.get?_erase]
  by_cases hname : key = name
  · rw [if_pos hname, if_pos hname.symm, ite_self]
  · rw [if_neg hname, if_neg (Ne.symm hname)]

/-- Of the entries of a name exactly one takes the write to it. -/
theorem existsUnique_writeAt {name : String} {bytes : Bytes}
    (hstaged : staged.get? name = some bytes)
    (hlisted : ∃ e ∈ entries, e.name = name) :
    ∃! i, ∃ e, entries[i]? = some e ∧ e.name = name
      ∧ writeAt staged entries i e.name = some bytes := by
  have hfirst : entries.findIdx (·.name = name) < entries.length := by
    apply List.findIdx_lt_length_of_exists
    obtain ⟨e, he, hname⟩ := hlisted
    exact ⟨e, he, decide_eq_true hname⟩
  have hfound : entries[entries.findIdx (·.name = name)].name = name := by
    simpa using List.findIdx_getElem (p := fun e : Entry => e.name = name) (w := hfirst)
  -- an entry takes no write if one of its name stands in front of it
  have hnone {i j : Nat} {e e' : Entry} (hlt : i < j) (he : entries[i]? = some e)
      (hname : e.name = e'.name) : writeAt staged entries j e'.name = none := by
    rw [writeAt, if_pos]
    refine ⟨e, List.mem_take_iff_getElem.2 ?_, hname⟩
    obtain ⟨hi, hget⟩ := List.getElem?_eq_some_iff.1 he
    exact ⟨i, Nat.lt_min.2 ⟨hlt, hi⟩, hget⟩
  refine ⟨entries.findIdx (·.name = name), ⟨_, List.getElem?_eq_getElem hfirst, hfound, ?_⟩, ?_⟩
  · rw [hfound, writeAt, if_neg, hstaged]
    rintro ⟨e, he, hname⟩
    obtain ⟨j, hj, rfl⟩ := List.mem_take_iff_getElem.1 he
    have hnot := List.not_of_lt_findIdx (Nat.lt_min.1 hj).1
    rw [decide_eq_true hname] at hnot
    contradiction
  · rintro i ⟨e, he, hname, hwrite⟩
    rcases Nat.lt_trichotomy i (entries.findIdx (·.name = name)) with hlt | heq | hlt
    · have hnot := List.not_of_lt_findIdx hlt
      obtain ⟨hi, hget⟩ := List.getElem?_eq_some_iff.1 he
      rw [hget, decide_eq_true hname] at hnot
      contradiction
    · exact heq
    · rw [hnone hlt (List.getElem?_eq_getElem hfirst) (hfound.trans hname.symm)] at hwrite
      contradiction

/-! ## The items -/

theorem Rebuilds.length_eq (h : Rebuilds file staged entries items left) :
    items.length = entries.length := by
  induction h with
  | done => rfl
  | replace opens written rest ih => rw [List.length_cons, List.length_cons, ih]
  | copy opens unwritten rest ih => rw [List.length_cons, List.length_cons, ih]

/-- Each entry becomes an item at its position, of the write that it takes or of its data. -/
theorem Rebuilds.exists_getElem? (h : Rebuilds file staged entries items left) {i : Nat} {e : Entry}
    (he : entries[i]? = some e) :
    ∃ compressed, e.openIn file = .ok compressed
      ∧ items[i]? = some (itemOf e compressed (writeAt staged entries i e.name)) := by
  induction h generalizing i with
  | done => cases he
  | @replace staged left e₀ entries items compressed bytes opens written rest ih =>
    cases i with
    | zero =>
      cases he
      refine ⟨compressed, opens, ?_⟩
      rw [writeAt_zero, written]
      rfl
    | succ i =>
      obtain ⟨compressed', hopens, hitem⟩ := ih he
      refine ⟨compressed', hopens, ?_⟩
      rw [writeAt_cons, ← writeAt_erase]
      exact hitem
  | @copy staged left e₀ entries items compressed opens unwritten rest ih =>
    cases i with
    | zero =>
      cases he
      refine ⟨compressed, opens, ?_⟩
      rw [writeAt_zero, unwritten]
      rfl
    | succ i =>
      obtain ⟨compressed', hopens, hitem⟩ := ih he
      refine ⟨compressed', hopens, ?_⟩
      rw [writeAt_cons]
      -- no write to the name of the entry in front was staged
      have hsame : (if e₀.name = e.name then none else writeAt staged entries i e.name)
          = writeAt staged entries i e.name := by
        split
        case isTrue hname => rw [writeAt, ← hname, unwritten, ite_self]
        case isFalse => rfl
      rw [hsame]
      exact hitem

/-- The writes that no entry takes are those to names that are not listed. -/
theorem Rebuilds.entries_left (h : Rebuilds file staged entries items left) :
    left.entries = unlisted staged entries := by
  induction h with
  | done =>
    rw [unlisted]
    exact (List.filter_eq_self.2 fun _ _ => rfl).symm
  | replace opens written rest ih =>
    rw [ih, unlisted, unlisted, OrderedTable.erase]
    dsimp only
    rw [List.filter_filter]
    refine List.filter_congr fun write hwrite => ?_
    rw [List.all_cons, Bool.and_comm]
    congr 1
    exact decide_eq_decide.2 ne_comm
  | @copy staged left e entries items compressed opens unwritten rest ih =>
    rw [ih, unlisted, unlisted]
    refine List.filter_congr fun write hwrite => ?_
    have hne : e.name ≠ write.1 := by
      intro hname
      rw [hname, OrderedTable.mem_entries_iff.1 hwrite] at unwritten
      contradiction
    rw [List.all_cons, decide_eq_true hne, Bool.true_and]

/-- The items of the archive with the staged writes: one for each entry, and the new ones. -/
theorem exists_of_rebuiltItems {directory : Directory}
    (h : rebuiltItems file directory staged = .ok items) :
    ∃ kept left, Rebuilds file staged directory.entries kept left
      ∧ items = kept
        ++ (unlisted staged directory.entries).map fun (name, bytes) => Item.new name bytes := by
  obtain ⟨⟨kept, left⟩, hentries, hitems⟩ := bind_eq_ok_iff.1 h
  cases hitems
  obtain ⟨kept, rfl, hrebuilds⟩ := rebuilds_of_rebuildEntries hentries
  exact ⟨kept, left, hrebuilds, by rw [← hrebuilds.entries_left]⟩

/-! ## The entries -/

/-- Whether an entry is a raw copy of another one. -/
structure Copied (file file' : Buffer) (e e' : Entry) : Prop where
  name : e'.name = e.name
  method : e'.method = e.method
  date : e'.date = e.date
  time : e'.time = e.time
  crc : e'.crc = e.crc
  compressedSize : e'.compressedSize = e.compressedSize
  size : e'.size = e.size
  compressed : ∃ bytes, e.compressed file = .ok bytes ∧ e'.compressed file' = .ok bytes

/-- Whether an entry has taken the place of another one, with new contents. -/
structure Rewritten (file' : Buffer) (bytes : Bytes) (e e' : Entry) : Prop where
  name : e'.name = e.name
  method : e'.method = if e.method = .stored then .stored else .deflated
  date : e'.date = e.date
  time : e'.time = e.time
  read : e'.read file' = .ok bytes

/-- Whether an entry is one that was added for a write. -/
structure Added (file' : Buffer) (write : String × Bytes) (e' : Entry) : Prop where
  name : e'.name = write.1
  method : e'.method = .deflated
  read : e'.read file' = .ok write.2

/-- Whether the entries of a file are those of another one with staged writes. -/
structure LaidOut (file file' : Buffer) (staged : OrderedTable String Bytes)
    (entries entries' : List Entry) : Prop where
  length : entries'.length = entries.length + (unlisted staged entries).length
  once : ∀ name bytes, staged.get? name = some bytes → (∃ e ∈ entries, e.name = name) →
    ∃! i, ∃ e, entries[i]? = some e ∧ e.name = name ∧ writeAt staged entries i e.name = some bytes
  kept : ∀ i e, entries[i]? = some e → ∃ e', entries'[i]? = some e'
    ∧ (match writeAt staged entries i e.name with
      | some bytes => Rewritten file' bytes e e'
      | none => Copied file file' e e')
    ∧ ∀ mode, e.mode? = some mode → e'.permissions = mode &&& 0o777
  added : List.Forall₂ (Added file') (unlisted staged entries) (entries'.drop entries.length)
  ascending : (entries'.drop entries.length).Pairwise fun e e' =>
    Text.Utf8.encode e.name < Text.Utf8.encode e'.name

variable {e e' : Entry} {compressed : Bytes}

theorem copied_of_presents (hopens : e.openIn file = .ok compressed)
    (h : Presents file' (.ofEntry e compressed) e') : Copied file file' e e' := by
  obtain ⟨⟨offset, rfl⟩, hcompressed⟩ := h
  obtain ⟨-, hdata, -⟩ := Entry.openIn_eq_ok_iff.1 hopens
  exact ⟨rfl, rfl, rfl, rfl, rfl, rfl, rfl, compressed, hdata, hcompressed⟩

theorem rewritten_of_presents {bytes : Bytes} (h : Presents file' (replacement e bytes) e') :
    Rewritten file' bytes e e' := by
  have hread := h.read_eq.trans (content_replacement e bytes)
  obtain ⟨⟨offset, rfl⟩, -⟩ := h
  refine ⟨rfl, ?_, rfl, rfl, hread⟩
  rw [Item.entry, replacement]
  dsimp only [Item.ofData]
  cases e.method <;> rfl

theorem permissions_of_presents {write : Option Bytes} {mode : Nat}
    (h : Presents file' (itemOf e compressed write) e') (hmode : e.mode? = some mode) :
    e'.permissions = mode &&& 0o777 := by
  have hbits : (itemOf e compressed write).mode &&& 0o777 = mode &&& 0o777 := by
    cases write with
    | none =>
      rw [itemOf, Item.ofEntry, hmode]
      dsimp only
      rw [Nat.and_assoc, Nat.and_self]
    | some bytes =>
      have hkept : (replacement e bytes).mode = (mode &&& 0o777) ||| 0o100000 := by
        rw [replacement, hmode]
        rfl
      rw [itemOf, hkept, Nat.and_or_distrib_right, Nat.and_assoc, Nat.and_self]
      exact Nat.or_zero _
  obtain ⟨⟨offset, rfl⟩, -⟩ := h
  rw [Entry.permissions, Item.entry, Nat.shiftLeft_shiftRight]
  exact hbits

theorem added_of_presents {write : String × Bytes}
    (h : Presents file' (.new write.1 write.2) e') : Added file' write e' := by
  have hread := h.read_eq.trans (content_new write.1 write.2)
  obtain ⟨⟨offset, rfl⟩, -⟩ := h
  exact ⟨rfl, rfl, hread⟩

/-- If an archive that was built anew reopens, it is laid out as the one before. -/
theorem laidOut_of_presents {directory : Directory} {entries' : List Entry}
    (hitems : rebuiltItems file directory staged = .ok items)
    (hpresents : List.Forall₂ (Presents file') items entries') :
    LaidOut file file' staged directory.entries entries' := by
  obtain ⟨kept, left, hrebuilds, rfl⟩ := exists_of_rebuiltItems hitems
  have hlength := hpresents.length_eq
  rw [List.length_append, List.length_map, hrebuilds.length_eq] at hlength
  have hadded : List.Forall₂ (Added file') (unlisted staged directory.entries)
      (entries'.drop directory.entries.length) := by
    have hnew := List.forall₂_drop directory.entries.length hpresents
    rw [← hrebuilds.length_eq, List.drop_left, hrebuilds.length_eq, List.forall₂_map_left_iff]
      at hnew
    exact hnew.imp fun write e' h => added_of_presents h
  refine ⟨hlength.symm, fun name bytes => existsUnique_writeAt, fun i e he => ?_, hadded, ?_⟩
  · obtain ⟨compressed, hopens, hitem⟩ := hrebuilds.exists_getElem? he
    obtain ⟨hi, hget⟩ := List.getElem?_eq_some_iff.1 hitem
    have hi' : i < entries'.length := by
      rw [← hlength, ← hrebuilds.length_eq]
      exact Nat.lt_add_right _ hi
    have hpresent : Presents file' (itemOf e compressed (writeAt staged directory.entries i e.name))
        entries'[i] := by
      have hat := hpresents.get (hpresents.length_eq ▸ hi') hi'
      rw [List.get_eq_getElem, List.get_eq_getElem, List.getElem_append_left hi, hget] at hat
      exact hat
    refine ⟨entries'[i], List.getElem?_eq_getElem hi', ?_,
      fun mode => permissions_of_presents hpresent⟩
    cases hwrite : writeAt staged directory.entries i e.name with
    | none =>
      rw [hwrite] at hpresent
      exact copied_of_presents hopens hpresent
    | some bytes =>
      rw [hwrite] at hpresent
      exact rewritten_of_presents hpresent
  · -- the writes are in the order of their names, which is that of their bytes
    have hnames : (entries'.drop directory.entries.length).map Entry.name
        = (unlisted staged directory.entries).map Prod.fst := by
      have heq : List.Forall₂ (fun write e' => Prod.fst write = Entry.name e')
          (unlisted staged directory.entries) (entries'.drop directory.entries.length) :=
        hadded.imp fun write e' h => h.name.symm
      have hmap := List.forall₂_map_left_iff.2 (List.forall₂_map_right_iff.2 heq)
      exact (List.forall₂_eq_eq_eq ▸ hmap).symm
    have hascending : ((unlisted staged directory.entries).map Prod.fst).Pairwise (· < ·) :=
      List.pairwise_map.2 (staged.ascending.filter _)
    rw [← hnames, List.pairwise_map] at hascending
    exact hascending.imp Text.Utf8.encode_lt_encode

/-! ## Closing -/

/-- After a close that put writes into an archive's file, the archive is laid out as before: in the
file at the place that its path names, which has its comment and its permissions. Nothing is found
beside it. The path leads to that file unless a link stood at the place. -/
theorem exists_laidOut_of_close {fs : FileSystem} {handle : Handle} {source : Source}
    (hfiles : WellFormed fs) (habsolute : Path.isAbsolute handle.path = true)
    (hopen : handle.source = some source) (hsource : source.file < fs.files.size)
    (hstaged : handle.staged.isEmpty = false)
    (hfree : ∀ l node slash,
      fs.resolve .entry (temporaryPath handle.path) ≠ .ok (.found l node slash))
    (hreopens : ∀ items, rebuiltItems (source.bytes fs) source.directory handle.staged = .ok items →
      Reopens items source.directory.comment)
    (hclose : (handle.close fs).2.2 = .ok ()) :
    ∃ there id directory, NamesPlace fs handle.path there
      ∧ (handle.close fs).2.1.node? there = some (.file id)
      ∧ Directory.read ((handle.close fs).2.1.data id).bytes = .ok directory
      ∧ directory.comment = source.directory.comment
      ∧ LaidOut (source.bytes fs) ((handle.close fs).2.1.data id).bytes handle.staged
        source.directory.entries directory.entries
      ∧ (∀ mode, fs.mode handle.path = .ok mode →
        ((handle.close fs).2.1.data id).mode = mode)
      ∧ (∀ l node slash, (handle.close fs).2.1.resolve .entry (temporaryPath handle.path)
        ≠ .ok (.found l node slash))
      ∧ ((∀ goal, fs.node? there ≠ some (.link goal)) →
        openAt (handle.close fs).2.1 handle.path = .ok ⟨handle.path,
          some ⟨id, ((handle.close fs).2.1.data id).bytes.size, directory⟩, ∅⟩) := by
  rw [close_eq hopen hstaged] at hclose ⊢
  obtain ⟨placed, dir, last, hnames, hplacing, hbecomes⟩ :=
    exists_placing_of_flush hfiles habsolute hsource hfree hclose
  generalize (flush fs source handle.staged handle.path).1 = fs' at hbecomes ⊢
  obtain ⟨id, hnode, hdata⟩ := hbecomes.exists_node?
  -- the bytes at the place are those of the items, so they reopen to entries of them
  obtain ⟨items, hitems, hencode⟩ := rebuilt_eq_ok_iff.1 hplacing.rebuilt
  obtain ⟨entries, hread, hpresents⟩ := hreopens items hitems
  rw [hencode, Array.toArray_toList, ← hdata] at hread hpresents
  have hmedium : (fs'.data id).medium = .disk := hdata ▸ hplacing.medium
  refine ⟨placed.1, id, _, hnames, hnode, hread, rfl,
    laidOut_of_presents hitems hpresents, fun mode hmode => ?_,
    hbecomes.resolve_beside hplacing habsolute, fun hlink => ?_⟩
  · rw [hdata]
    exact hplacing.mode mode hmode
  · have hfile := hbecomes.openFile hplacing habsolute hlink hnode
    exact openAt_eq_ok_iff.2 ⟨id, _, hfile, hmedium, hread, rfl⟩

/-! ## An archive that lists a name twice -/

/-- Two stored items of one name, in an archive that has a comment and can be read by its owner
alone. -/
def pairedFiles : FileSystem :=
  { nodes := [(["lib.jar"], .file 0)]
    files := #[⟨(Zip.encode [.ofData "b" .stored 21 5 0o100755 [1],
      .ofData "b" .stored 21 7 0o100644 [3]] [33]).toArray, 0o600, .disk⟩]
    current := [] }

/-- The archive as it is opened. -/
def pairedSource : Source :=
  ⟨0, (pairedFiles.data 0).bytes.size,
    ⟨[Item.entry (.ofData "b" .stored 21 5 0o100755 [1]) 0,
      Item.entry (.ofData "b" .stored 21 7 0o100644 [3]) 32], [33]⟩⟩

/-- A handle of the archive, with writes to the name and to a new one. -/
def pairedHandle : Handle :=
  ⟨"/lib.jar", some pairedSource, .ofList [("c", [8]), ("b", [9])]⟩

/-- The items after the writes. -/
def pairedItems : List Item :=
  [.ofData "b" .stored 21 5 0o100755 [9], .ofData "b" .stored 21 7 0o644 [3],
    { name := "c", method := .deflated, date := defaultDate, time := 0, mode := defaultMode,
      crc := 3705235391, compressedSize := 3, size := 1, compressed := [227, 0, 0] }]

theorem deflate_pairedHandle : deflate [8] = [227, 0, 0] := by
  have hblocks : Deflate.blocksOf #[8] = #[⟨#[.literal 8], 0, 1, true⟩] := rfl
  have hcompressed : Deflate.compressed [8] = [227, 0, 0] := by
    rw [Deflate.compressed, hblocks, Deflate.encodeBlocks_short _ (by decide)]
    decide +kernel
  rw [deflate, hcompressed]
  exact if_pos (by decide +kernel)

theorem new_eq_pairedItems : Item.new "c" [8] = pairedItems[2] := by
  have hcrc : (crc32 [8]).toNat = 3705235391 := rfl
  rw [Item.new, Item.ofData.eq_def]
  dsimp only
  rw [deflate_pairedHandle, hcrc]
  rfl

theorem rebuiltItems_pairedHandle :
    rebuiltItems (pairedSource.bytes pairedFiles) pairedSource.directory pairedHandle.staged
      = .ok pairedItems := by
  have hentries : rebuildEntries (pairedSource.bytes pairedFiles) pairedHandle.staged []
      pairedSource.directory.entries = .ok (pairedItems.take 2, .ofList [("c", [8])]) := by
    decide +kernel
  have hleft : (OrderedTable.ofList [("c", [8])] : OrderedTable String Bytes).entries
      = [("c", [8])] := rfl
  rw [rebuiltItems, hentries]
  dsimp only [bind, Except.bind, pure, Except.pure]
  rw [hleft, List.map_singleton, new_eq_pairedItems]
  rfl

theorem fits_pairedItems : Zip.Fits pairedItems [33] where
  fits := by
    have hnew : pairedItems[2].Fits := by
      rw [← new_eq_pairedItems]
      exact Zip.fits_ofData (by decide) (.inr rfl) (by decide) (by decide) (by decide)
        (by decide)
    rw [pairedItems, List.forall_mem_cons, List.forall_mem_cons, List.forall_mem_singleton]
    refine ⟨?_, ?_, hnew⟩
    all_goals
      exact Zip.fits_ofData (by decide) (.inl rfl) (by decide) (by decide) (by decide)
        (by decide)
  count := by decide
  place := by cbv
  directory := by cbv
  comment_length := by decide
  last i hpos hle := by
    -- the comment is a single byte
    obtain rfl : i = 1 := Nat.le_antisymm hle hpos
    decide

theorem reopens_of_pairedHandle {items : List Item}
    (h : rebuiltItems (pairedSource.bytes pairedFiles) pairedSource.directory pairedHandle.staged
      = .ok items) : Reopens items pairedSource.directory.comment := by
  cases rebuiltItems_pairedHandle.symm.trans h
  exact Zip.reopens_of_fits fits_pairedItems

theorem wellFormed_pairedFiles : WellFormed pairedFiles :=
  wellFormed_of_forall (by simp [pairedFiles]) (by simp [pairedFiles])

/-- The archive's file stands at the end of its path, and nothing beside it. -/
theorem resolve_pairedFiles :
    pairedFiles.resolve .entry pairedHandle.path = .ok (.found ["lib.jar"] (.file 0) false)
      ∧ pairedFiles.resolve .entry (temporaryPath pairedHandle.path)
        = .ok (.vacant ["lib.jar.tmp"] false)
      ∧ pairedFiles.resolve .create (temporaryPath pairedHandle.path)
        = .ok (.vacant ["lib.jar.tmp"] false)
      ∧ pairedFiles.mode pairedHandle.path = .ok 0o600 :=
  ⟨rfl, rfl, rfl, rfl⟩

theorem canReplace_pairedHandle :
    CanReplace pairedFiles pairedHandle.path pairedFiles.files.size
      (pairedFiles.grow ["lib.jar.tmp"] ⟨#[], newFileMode, .disk⟩) := by
  obtain ⟨hplace, hbeside, hcreate, hmode⟩ := resolve_pairedFiles
  exact canReplace_of_found wellFormed_pairedFiles rfl hcreate hbeside hplace
    nofun hmode

theorem close_pairedHandle : (pairedHandle.close pairedFiles).2.2 = .ok () := by
  rw [close_eq rfl rfl]
  dsimp only
  rw [canReplace_pairedHandle.flush_eq_ok_iff, bytes_grow (by decide)]
  exact ⟨_, rebuilt_eq_ok_iff.2 ⟨_, rebuiltItems_pairedHandle, rfl⟩⟩

theorem ne_link_of_namesPlace_pairedHandle {there : Location}
    (h : NamesPlace pairedFiles pairedHandle.path there) (goal : String) :
    pairedFiles.node? there ≠ some (.link goal) := by
  intro hgoal
  rcases h with ⟨node, slash, hfound⟩ | ⟨slash, hvacant⟩
  · cases resolve_pairedFiles.1.symm.trans hfound
    cases hgoal
  · cases resolve_pairedFiles.1.symm.trans hvacant

/-- The first entry of the name is replaced, the other one is copied, and the new name follows. -/
theorem exists_laidOut_pairedHandle :
    ∃ id directory, openAt (pairedHandle.close pairedFiles).2.1 "/lib.jar" = .ok ⟨"/lib.jar",
        some ⟨id, ((pairedHandle.close pairedFiles).2.1.data id).bytes.size, directory⟩, ∅⟩
      ∧ directory.comment = [33] ∧ directory.entries.length = 3
      ∧ LaidOut (pairedSource.bytes pairedFiles)
        ((pairedHandle.close pairedFiles).2.1.data id).bytes pairedHandle.staged
        pairedSource.directory.entries directory.entries
      ∧ ((pairedHandle.close pairedFiles).2.1.data id).mode = 0o600 := by
  obtain ⟨-, hbeside, -, hmode'⟩ := resolve_pairedFiles
  obtain ⟨there, id, directory, hnames, -, -, hcomment, hlaid, hmode, -, hopen⟩ :=
    exists_laidOut_of_close wellFormed_pairedFiles rfl rfl (by decide)
      rfl (fun l node slash hfound => by rw [hbeside] at hfound; cases hfound)
      (fun items => reopens_of_pairedHandle) close_pairedHandle
  refine ⟨id, directory, hopen (ne_link_of_namesPlace_pairedHandle hnames), hcomment, ?_, hlaid,
    hmode 0o600 hmode'⟩
  rw [hlaid.length]
  rfl

end Handle

end Archive

end Reline
