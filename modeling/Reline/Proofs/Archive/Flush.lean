/-
  Reline.Proofs.Archive.Flush

  What putting staged writes into an archive's file does when it succeeds.

  The archive is built anew beside its file and moved over it. If no link stands
  at the place beside it, the new file ends up at the place of the old one and
  nothing else changes. A link there is followed when the new file is written,
  but it is the link that is moved, so that the archive's place holds a link
  afterwards.
-/

import Reline.Proofs.Archive.Rebuild
import Reline.Proofs.FileSystem.Operations

namespace Reline.Archive.Handle

open FileSystem

variable {fs fs' : FileSystem} {source : Source} {staged : OrderedTable String Bytes}

/-! ## Steps -/

theorem exists_of_flush {path : String} (h : flush fs source staged path = (fs', .ok ())) :
    ∃ built, rebuild fs source staged (temporaryPath path) = (built, .ok ())
      ∧ install built (temporaryPath path) path = (fs', .ok ()) := by
  rw [flush] at h
  dsimp only at h
  cases hrebuild : rebuild fs source staged (temporaryPath path) with
  | mk built result =>
    rw [hrebuild] at h
    cases result with
    | error e =>
      dsimp only at h
      split at h <;> cases h
    | ok done =>
      dsimp only at h
      cases hinstall : install built (temporaryPath path) path with
      | mk installed result =>
        rw [hinstall] at h
        cases result with
        | error e =>
          dsimp only at h
          split at h <;> cases h
        | ok done =>
          cases h
          exact ⟨built, rfl, hinstall⟩

theorem exists_of_rebuild {temporary : String}
    (h : rebuild fs source staged temporary = (fs', .ok ())) :
    ∃ id created bytes, fs.createFile temporary = .ok (id, created)
      ∧ rebuilt (source.bytes created)
        (rebuiltPart source.directory (created.data id).medium) staged = .ok bytes
      ∧ created.write id 0 bytes = .ok fs' ∧ fs'.sync id = .ok () := by
  rw [rebuild] at h
  cases hcreate : fs.createFile temporary with
  | error e =>
    rw [hcreate] at h
    cases h
  | ok pair =>
    obtain ⟨id, created⟩ := pair
    rw [hcreate] at h
    dsimp only at h
    split at h
    case h_1 => cases h
    case h_2 bytes hbytes =>
      split at h
      case h_1 => cases h
      case h_2 written hwrite =>
        rw [Prod.mk.injEq] at h
        obtain ⟨rfl, hsync⟩ := h
        exact ⟨id, created, bytes, rfl, hbytes, hwrite, mapError_eq_ok_iff.1 hsync⟩

theorem exists_of_install {temporary path : String}
    (h : install fs temporary path = (fs', .ok ())) :
    ∃ mode permitted, fs.setMode temporary mode = .ok permitted
      ∧ permitted.renameFile temporary path = .ok fs' := by
  rw [install] at h
  split at h
  case h_1 => cases h
  case h_2 mode hmode =>
    split at h
    case h_1 => cases h
    case h_2 permitted hset =>
      split at h
      case h_1 => cases h
      case h_2 renamed hrename =>
        cases h
        exact ⟨mode, permitted, hset, hrename⟩

/-! ## The place beside the archive -/

/-- The place at which an archive is built anew. -/
def besides (location : Location) : Location :=
  location.dropLast ++ [temporaryPath (location.getLast?.getD "")]

theorem isName_temporaryPath {name : String} (h : IsName name) : IsName (temporaryPath name) := by
  have hchars : (temporaryPath name).toList = name.toList ++ ['.', 't', 'm', 'p'] :=
    String.toList_append
  have hlength := congrArg List.length hchars
  rw [List.length_append] at hlength
  refine ⟨?_, ?_, ?_⟩
  · rw [hchars, List.mem_append, not_or]
    exact ⟨h.noSlash, by decide⟩
  · rw [Path.isNeutral, Bool.or_eq_false_iff, decide_eq_false_iff_not, decide_eq_false_iff_not]
    constructor <;>
    · intro heq
      rw [heq] at hlength
      simp at hlength
  · intro heq
    rw [heq] at hlength
    simp at hlength

theorem besides_ne {location : Location} (h : location ≠ []) : besides location ≠ location := by
  intro heq
  have hlast := congrArg List.getLast? heq
  rw [besides, List.getLast?_concat, List.getLast?_eq_some_getLast h, Option.some.injEq,
    Option.getD_some] at hlast
  have hlength := congrArg (fun name => name.toList.length) hlast
  simp [temporaryPath] at hlength

theorem temporaryPath_pathOf {location : Location} (h : location ≠ []) :
    temporaryPath (pathOf location) = pathOf (besides location) := by
  obtain ⟨dir, name, rfl⟩ : ∃ dir name, location = dir ++ [name] :=
    ⟨_, _, (List.dropLast_append_getLast h).symm⟩
  rw [besides, List.dropLast_concat, List.getLast?_concat, Option.getD_some, temporaryPath,
    temporaryPath, pathOf_append]

theorem inDirectory_besides {location : Location} (h : InDirectory fs location) :
    InDirectory fs (besides location) := by
  obtain ⟨above, isName⟩ := h
  rw [besides, List.dropLast_concat, List.getLast?_concat]
  exact .mk above (isName_temporaryPath isName)

/-! ## Reading the archive while it is rebuilt -/

theorem toNatLE_eq_zero {bytes : Bytes} (h : ∀ b ∈ bytes, b = 0) : Bytes.toNatLE bytes = 0 := by
  induction bytes with
  | nil => rfl
  | cons b rest ih =>
    have hb : b = 0 := h b (List.mem_cons_self ..)
    rw [Bytes.toNatLE, ih fun b hb => h b (List.mem_cons_of_mem _ hb), hb]
    rfl

/-- No entry can be opened in a file of zeros. -/
theorem openIn_replicate_ne_ok (e : Zip.Entry) (n : Nat) (compressed : Bytes) :
    e.openIn (Array.replicate n 0) ≠ .ok compressed := by
  intro hopens
  obtain ⟨-, hcompressed, -⟩ := Zip.Entry.openIn_eq_ok_iff.1 hopens
  rw [Zip.Entry.compressed] at hcompressed
  obtain ⟨⟨signature, rest⟩, htake, hcompressed⟩ := bind_eq_ok_iff.1 hcompressed
  -- what stands where the signature should be are zeros, if anything
  have hzero : Bytes.toNatLE signature = 0 := by
    apply toNatLE_eq_zero
    intro b hb
    rw [Zip.takeBytes] at htake
    split at htake
    · contradiction
    · cases htake
      have hwindow := List.mem_of_mem_take hb
      rw [Buffer.window_eq_slice, Bytes.slice] at hwindow
      have hfile := List.mem_of_mem_drop (List.mem_of_mem_take hwindow)
      rw [Array.toList_replicate] at hfile
      exact List.eq_of_mem_replicate hfile
  dsimp only at hcompressed
  rw [hzero, if_pos (by decide)] at hcompressed
  contradiction

/-- A file that became empty gives no entries, so nothing but new ones can be in the archive. -/
theorem rebuiltItems_of_emptied {length : Nat} {directory : Zip.Directory} {items : List Zip.Item}
    (h : rebuiltItems (Buffer.resize #[] length) directory staged = .ok items) (file : Buffer) :
    rebuiltItems file directory staged = .ok items := by
  obtain ⟨entries, comment⟩ := directory
  cases entries with
  | nil => exact h
  | cons e rest =>
    have hzeros : Buffer.resize #[] length = Array.replicate length 0 := by
      rw [Buffer.resize]
      split
      case isTrue hlength => subst hlength; rfl
      case isFalse => simp
    rw [rebuiltItems, rebuildEntries, hzeros] at h
    obtain ⟨_, hentries, -⟩ := bind_eq_ok_iff.1 h
    obtain ⟨compressed, hopens, -⟩ := bind_eq_ok_iff.1 hentries
    exact absurd hopens (openIn_replicate_ne_ok e length compressed)

/-- The items of the new archive are made of what the file contained, even if its own file is
emptied by the creation of the new one. -/
theorem rebuiltItems_of_created {created : FileSystem} {id : FileId} {directory : Zip.Directory}
    {items : List Zip.Item} (hlength : source.length = (fs.data source.file).bytes.size)
    (hempty : (created.data id).bytes = #[])
    (hothers : source.file ≠ id → created.data source.file = fs.data source.file)
    (h : rebuiltItems (source.bytes created) directory staged = .ok items) :
    rebuiltItems (fs.data source.file).bytes directory staged = .ok items := by
  rw [Source.bytes] at h
  -- the new file may be the archive's own file under a second name
  by_cases hsame : source.file = id
  · rw [hsame, hempty] at h
    exact rebuiltItems_of_emptied h _
  · rw [hothers hsame, hlength, Buffer.resize, if_pos rfl] at h
    exact h

/-! ## Without a link -/

/-- Building an archive anew at a place without a link puts a file there. -/
theorem exists_of_rebuild_pathOf (hdata : ∀ l id, fs.node? l = some (.file id) → id < fs.files.size)
    {beside : Location} (hbeside : InDirectory fs beside)
    (hlink : ∀ goal, fs.node? beside ≠ some (.link goal)) (hsource : source.file < fs.files.size)
    (hlength : source.length = (fs.data source.file).bytes.size)
    (h : rebuild fs source staged (pathOf beside) = (fs', .ok ())) :
    ∃ id items, (∀ node, fs.node? beside = some node → node = .file id)
      ∧ (∀ l, fs'.node? l = if l = beside then some (.file id) else fs.node? l)
      ∧ Keeps fs fs' ∧ id < fs'.files.size ∧ (fs'.data id).medium = .disk
      ∧ (fs'.data id).bytes = (Zip.encode items source.directory.comment).toArray
      ∧ rebuiltItems (fs.data source.file).bytes source.directory staged = .ok items := by
  obtain ⟨id, created, bytes, hcreate, hrebuilt, hwrite, hsync⟩ := exists_of_rebuild h
  obtain ⟨hbefore, hnodes, hid, hempty, hothers⟩ := createFile_pathOf hdata hbeside hlink hcreate
  have hkeeps := keeps_createFile (isAbsolute_pathOf beside) hcreate
  obtain ⟨hmedium, rfl⟩ := eq_of_write_of_sync hwrite hsync
  rw [hmedium] at hrebuilt
  obtain ⟨items, hitems, rfl⟩ := rebuilt_eq_ok_iff.1 hrebuilt
  refine ⟨id, items, ?_, hnodes, hkeeps.trans (keeps_modifyData ..), ?_, ?_, ?_, ?_⟩
  · intro node hnode
    rcases hbefore with hold | ⟨hnone, -⟩
    · exact Option.some.inj (hnode.symm.trans hold)
    · rw [hnone] at hnode
      contradiction
  · exact Nat.lt_of_lt_of_eq hid (size_modifyData id _).symm
  · rw [data_modifyData hid, if_pos rfl]
    exact hmedium
  · rw [data_modifyData hid, if_pos rfl, hempty]
    exact Buffer.overwrite_empty _
  · exact rebuiltItems_of_created hlength hempty (hothers source.file · hsource) hitems

/-- Installing a file moves it, and nothing else but its permissions changes. -/
theorem exists_of_install_pathOf {beside location : Location} (hbeside : InDirectory fs beside)
    (hplace : InDirectory fs location) {id : FileId} (hnode : fs.node? beside = some (.file id))
    (h : install fs (pathOf beside) (pathOf location) = (fs', .ok ())) :
    (∃ mode, fs'.files = (fs.modifyData id fun d => { d with mode }).files)
      ∧ fs'.current = fs.current
      ∧ ∀ l, fs'.node? l = if l = location then some (.file id)
        else if l = beside then none else fs.node? l := by
  obtain ⟨mode, permitted, hset, hrename⟩ := exists_of_install h
  have hkeeps := keeps_setMode (isAbsolute_pathOf beside) hset
  -- the path beside the archive leads to the file that stands there
  have hat {l : Location} {node : Node}
      (hinspect : fs.inspect (pathOf beside) = .ok (l, node)) : node = .file id := by
    obtain ⟨slash, hresolve⟩ := inspect_eq_ok_iff.1 hinspect
    have htarget := eq_targetAt_of_resolve hbeside hresolve (.inr fun goal => by rw [hnode]; nofun)
    rw [targetAt, hnode] at htarget
    cases htarget
    rfl
  rcases exists_of_setMode hset with ⟨l, old, hinspect, rfl⟩ | ⟨l, old, hinspect, rfl⟩
  · cases hat hinspect
    obtain ⟨node, hmoved, hcurrent, hdata, hnodes⟩ :=
      node?_renameFile_pathOf (hkeeps.inDirectory hbeside) (hkeeps.inDirectory hplace) hrename
    rw [node?_modifyData, hnode] at hmoved
    cases hmoved
    exact ⟨⟨mode, hdata⟩, hcurrent, hnodes⟩
  · cases hat hinspect

/-- If no link stands beside an archive, a flush puts a new file in its place, which contains the
archive with the staged writes. -/
theorem replaced_of_flush (hfiles : WellFormed fs) {location : Location}
    (hplace : InDirectory fs location) (hnode : fs.node? location = some (.file source.file))
    (hlength : source.length = (fs.data source.file).bytes.size)
    (hlink : ∀ goal, fs.node? (besides location) ≠ some (.link goal))
    (h : flush fs source staged (pathOf location) = (fs', .ok ())) :
    ∃ id items, Replaced fs fs' location (besides location) id
      ∧ rebuiltItems (fs.data source.file).bytes source.directory staged = .ok items
      ∧ (fs'.data id).bytes = (Zip.encode items source.directory.comment).toArray
      ∧ (fs'.data id).medium = .disk := by
  obtain ⟨built, hrebuild, hinstall⟩ := exists_of_flush h
  rw [temporaryPath_pathOf hplace.ne_nil] at hrebuild hinstall
  have hbesides := inDirectory_besides hplace
  have hne := besides_ne hplace.ne_nil
  obtain ⟨id, items, hbefore, hbuilt, hkeeps, hid, hmedium, hbytes, hitems⟩ :=
    exists_of_rebuild_pathOf hfiles.data hbesides hlink (hfiles.data _ _ hnode) hlength hrebuild
  -- the new file was built beside the archive, and is what is moved over it
  have hthere : built.node? (besides location) = some (.file id) := by rw [hbuilt, if_pos rfl]
  obtain ⟨⟨mode, hdata⟩, hcurrent, hnodes⟩ := exists_of_install_pathOf (hkeeps.inDirectory hbesides)
    (hkeeps.inDirectory hplace) hthere hinstall
  have hfile : fs'.data id = { built.data id with mode } := by
    have hmodified := data_modifyData hid (fun d => { d with mode }) id
    rw [if_pos rfl] at hmodified
    rw [← hmodified, data, hdata, data]
  refine ⟨id, items, ?_, hitems, ?_, ?_⟩
  · exact {
      distinct := hne
      before := ⟨_, hnode⟩
      after := by rw [hnodes, if_pos rfl]
      noMore := fun node hold => ⟨id, hbefore node hold⟩
      gone := by rw [hnodes, if_neg hne, if_pos rfl]
      others := by
        intro l hl hl'
        rw [hnodes, if_neg hl, if_neg hl', hbuilt, if_neg hl']
      current := hcurrent.trans hkeeps.current }
  · rw [hfile]
    exact hbytes
  · rw [hfile]
    exact hmedium

/-! ## With a link -/

/-- If a link stands beside an archive, a flush puts the link in its place. -/
theorem node?_of_flush_of_link {location : Location} (hplace : InDirectory fs location)
    {goal : String} (hlink : fs.node? (besides location) = some (.link goal))
    (h : flush fs source staged (pathOf location) = (fs', .ok ())) :
    fs'.node? location = some (.link goal) := by
  obtain ⟨built, hrebuild, hinstall⟩ := exists_of_flush h
  rw [temporaryPath_pathOf hplace.ne_nil] at hrebuild hinstall
  obtain ⟨id, created, bytes, hcreate, hrebuilt, hwrite, hsync⟩ := exists_of_rebuild hrebuild
  obtain ⟨-, rfl⟩ := eq_of_write_of_sync hwrite hsync
  obtain ⟨mode, permitted, hset, hrename⟩ := exists_of_install hinstall
  -- neither creating the file nor giving it permissions touches the link
  have hcreated : Keeps fs created := keeps_createFile (isAbsolute_pathOf _) hcreate
  have hkeeps := (hcreated.trans (keeps_modifyData ..)).trans
    (keeps_setMode (isAbsolute_pathOf _) hset)
  obtain ⟨node, hmoved, -, -, hnodes⟩ := node?_renameFile_pathOf
    (hkeeps.inDirectory (inDirectory_besides hplace)) (hkeeps.inDirectory hplace) hrename
  rw [hkeeps.link hlink] at hmoved
  rw [hnodes, if_pos rfl, hmoved]

end Reline.Archive.Handle
