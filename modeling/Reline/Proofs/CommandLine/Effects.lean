/-
  Reline.Proofs.CommandLine.Effects

  What commands change.

  Every command checks its input first. If the thread count, the manifest, the
  class file or the mapping is refused, nothing has happened: no file was created
  or emptied, no archive was opened, nothing was logged. Listing lines changes no
  file at all. A class file that is remapped goes to the one file that its path
  leads to, through links; besides that file only directories on the way to it
  come into being, and nothing that stood anywhere goes.

  A device at that path takes the bytes and keeps none, so that what is read
  there afterwards is known for files on a disk only.

  Main statement: `Invocation.run_checksFirst`.
-/

import Reline.CommandLine.Run
import Reline.Proofs.Archive.Registry
import Reline.Proofs.Remapping
import Reline.Proofs.Sink.Directory

namespace Reline

namespace FileSystem

variable {fs made fs' : FileSystem} {path : String} {bytes : Bytes}

/-! ## What files are besides their bytes -/

/-- Whether all files keep their permissions and what they are kept on. New files are kept on a
disk, as are, by default, files that are not there. -/
structure SameKinds (fs fs' : FileSystem) : Prop where
  size : fs.files.size ≤ fs'.files.size
  mode : ∀ j < fs.files.size, (fs'.data j).mode = (fs.data j).mode
  medium : ∀ j, (fs'.data j).medium = (fs.data j).medium

theorem SameKinds.refl (fs : FileSystem) : SameKinds fs fs :=
  ⟨Nat.le_refl _, fun _ _ => rfl, fun _ => rfl⟩

theorem SameKinds.trans (h : SameKinds fs made) (h' : SameKinds made fs') : SameKinds fs fs' where
  size := Nat.le_trans h.size h'.size
  mode j hj := (h'.mode j (Nat.lt_of_lt_of_le hj h.size)).trans (h.mode j hj)
  medium j := (h'.medium j).trans (h.medium j)

theorem sameKinds_modifyData (fs : FileSystem) (id : FileId) (f : Buffer → Buffer) :
    SameKinds fs (fs.modifyData id fun d => { d with bytes := f d.bytes }) := by
  have hdata (j : FileId) : (fs.modifyData id fun d => { d with bytes := f d.bytes }).data j
      = { fs.data j with bytes := ((fs.modifyData id fun d =>
        { d with bytes := f d.bytes }).data j).bytes } := by
    rw [data, data, modifyData, Array.getD_eq_getD_getElem?, Array.getD_eq_getD_getElem?,
      Array.getElem?_modify]
    split
    · cases fs.files[j]? <;> rfl
    · rfl
  refine ⟨Nat.le_of_eq (size_modifyData ..).symm, fun j _ => ?_, fun j => ?_⟩
  · rw [hdata]
  · rw [hdata]

theorem sameKinds_createFile {id : FileId} (h : fs.createFile path = .ok (id, fs')) :
    SameKinds fs fs' := by
  rcases exists_of_createFile h with ⟨l, slash, -, rfl⟩ | ⟨l, slash, -, rfl, rfl⟩
  · exact sameKinds_modifyData fs id fun _ => #[]
  · have hdata := data_grow fs l ⟨#[], newFileMode, .disk⟩
    refine ⟨?_, fun j hj => ?_, fun j => ?_⟩
    · exact Nat.le_of_lt (size_grow fs l _ ▸ Nat.lt_succ_self _)
    · exact congrArg FileData.mode ((hdata j).trans (if_neg (Nat.ne_of_lt hj)))
    · refine (congrArg FileData.medium (hdata j)).trans ?_
      split
      case isTrue heq =>
        rw [heq, data, Array.getD_eq_getD_getElem?, Array.getElem?_size]
        rfl
      case isFalse => rfl

theorem sameKinds_write {id : FileId} {offset : Nat} (h : fs.write id offset bytes = .ok fs') :
    SameKinds fs fs' := by
  rw [write] at h
  split at h
  case h_1 =>
    cases h
    exact sameKinds_modifyData fs id fun buffer => buffer.overwrite offset bytes
  case h_2 =>
    cases h
    exact .refl fs
  case h_3 =>
    split at h
    · cases h
      exact .refl fs
    · contradiction

theorem sameKinds_putContents (fs : FileSystem) (path : String) (bytes : Bytes) :
    SameKinds fs (fs.putContents path bytes).1 := by
  rw [putContents]
  cases hcreate : fs.createFile path with
  | error e => exact .refl fs
  | ok pair =>
    obtain ⟨id, created⟩ := pair
    dsimp only
    cases hwrite : created.write id 0 bytes with
    | error e => exact sameKinds_createFile hcreate
    | ok written => exact (sameKinds_createFile hcreate).trans (sameKinds_write hwrite)

/-! ## Files behind new directories -/

/-- What has become of a file system when bytes were written to a path, behind the directories that
were missing. -/
structure Deposited (fs fs' : FileSystem) (path : String) (bytes : Bytes) (location : Location)
    (id : FileId) : Prop where
  current : fs'.current = fs.current
  /-- The path leads to the file, through links. -/
  leads : fs.WalksTo path location
  named : fs'.inspect path = .ok (location, .file id)
  /-- It is the file that the path named before, if it did. -/
  same : ∀ l j, fs.inspect path = .ok (l, .file j) → l = location ∧ j = id
  /-- Everything stays where it was. -/
  keeps : ∀ l node, fs.node? l = some node → fs'.node? l = some node
  /-- What is new is the file, or a directory on the way to it. -/
  fresh : ∀ l node, fs.node? l = none → fs'.node? l = some node →
    (∃ mode, node = .directory mode) ∧ fs.OnWay ((Path.parent path).getD "") l
      ∨ l = location ∧ node = .file id
  /-- No data changes but that of the file. -/
  others : ∀ j < fs.files.size, j ≠ id → fs'.data j = fs.data j
  kinds : SameKinds fs fs'
  /-- Unless it is a device that stood there, the file holds the bytes. -/
  holds : (fs.node? location = some (.file id) → (fs.data id).medium = .disk) →
    (fs'.data id).bytes.toList = bytes

theorem exists_deposited (hfiles : WellFormed fs)
    (hmake : fs.createDirectories ((Path.parent path).getD "") = (made, .ok ()))
    (hput : made.putContents path bytes = (fs', .ok ())) :
    ∃ location id, Deposited fs fs' path bytes location id := by
  have hfurnished := furnished_createDirectories fs ((Path.parent path).getD "")
  have hmade := wellFormed_createDirectories hfiles ((Path.parent path).getD "")
  have hkinds := sameKinds_putContents made path bytes
  have hcases := putContents_cases hmade path bytes
  rw [hmake] at hfurnished hmade hcases
  rw [hput] at hkinds hcases
  rcases hcases with ⟨-, hfail⟩ | ⟨location, id, created, hcreates, hrefilled, hbytes⟩
  · exact absurd rfl hfail
  have hfilled : Filled made fs' location id := hcreates.filled.of_refilled hrefilled
  have hdata (j : FileId) : made.data j = fs.data j := by rw [data, data, hfurnished.files]
  have hsize : made.files.size = fs.files.size := congrArg Array.size hfurnished.files
  have hleads : fs.WalksTo path location := by
    have hwalks := hcreates.walksTo
    rwa [WalksTo, hfurnished.sameLinks.walks_iff, hfurnished.startOf_eq] at hwalks
  have hkeeps (l : Location) (node : Node) (hnode : fs.node? l = some node) :
      fs'.node? l = some node :=
    hfilled.node?_eq (hfurnished.keeps l node hnode)
  refine ⟨location, id, {
    current := hfilled.current.trans hfurnished.current
    leads := hleads
    named := hcreates.inspect hfilled
    same := fun l j hinspect => ?_
    keeps := hkeeps
    fresh := fun l node hnone hnode => ?_
    others := fun j hj hne => ?_
    kinds := ⟨hsize ▸ hkinds.size, fun j hj => ?_, fun j => ?_⟩
    holds := fun hdisk => ?_ }⟩
  · obtain ⟨slash, hresolve⟩ := inspect_eq_ok_iff.1 hinspect
    have hl := hleads.unique (walksTo_of_file hresolve)
    subst hl
    have hfile := hkeeps _ _ (mem_way_of_found hresolve).2
    rw [hfilled.node?_location] at hfile
    cases hfile
    exact ⟨rfl, rfl⟩
  · rcases hfilled.node?_before hnode with hstood | ⟨rfl, rfl, -⟩
    · exact .inl (hfurnished.fresh l node hnone hstood)
    · exact .inr ⟨rfl, rfl⟩
  · rw [hrefilled.others j hne, hcreates.others j hne (hsize ▸ hj), hdata]
  · rw [hkinds.mode j (hsize ▸ hj), hdata]
  · rw [hkinds.medium j, hdata]
  · refine hbytes rfl ?_
    rw [hkinds.medium id, hdata]
    rcases hcreates.leads with ⟨-, hfile⟩ | ⟨-, -, -, hnew⟩
    · -- no directory that was created is a file, so the file stood there before
      refine hdisk ?_
      cases hnode : fs.node? location with
      | none =>
        obtain ⟨⟨mode, heq⟩, -⟩ := hfurnished.fresh location _ hnode hfile
        contradiction
      | some node => exact (hfurnished.keeps location node hnode).symm.trans hfile
    · rw [hnew, hsize, data, Array.getD_eq_getD_getElem?, Array.getElem?_size]
      rfl

end FileSystem

/-! ## Stores that are only read -/

namespace Archive.Store

variable {store store' : Store} {world world' : World} {path : String}

/-- Whether nothing is staged in the handles of a store. -/
def IsClean (store : Store) (world : World) : Prop :=
  ∀ cell ∈ store.cells, ∀ id, cell.handle = some id → (world.handle id).staged.isEmpty

/-- Asking a clean store for an archive keeps it clean. -/
theorem IsClean.of_asks (h : store.IsClean world) {result : Except Error HandleId}
    (hasks : store.Asks world path store' world' result) : store'.IsClean world' := by
  cases hasks with
  | invalid keyed => exact h
  | held keyed held => exact h
  | refused keyed vacant refusal =>
    intro cell hcell id hid
    rcases mem_register_cases hcell with ⟨hnone, -⟩ | hold
    · cases hnone.symm.trans hid
    · exact h cell hold id hid
  | opened keyed vacant opening =>
    intro cell hcell id hid
    rw [World.handle_push]
    split
    case isTrue =>
      obtain ⟨file, directory, -, -, -, rfl⟩ := Handle.openAt_eq_ok_iff.1 opening
      rfl
    case isFalse hne =>
      rcases mem_register_cases hcell with ⟨hnew, -⟩ | hold
      · exact absurd (Option.some.inj (hid.symm.trans hnew)) hne
      · exact h cell hold id hid

theorem IsClean.read (h : store.IsClean world) (path entry : String) :
    (store.read world path entry).1.IsClean (store.read world path entry).2.1
      ∧ (store.read world path entry).2.1.files = world.files := by
  have hasks := store.asks world path
  rw [Store.read]
  generalize store.handle world path = asked at hasks ⊢
  obtain ⟨opened, next, e | id⟩ := asked
  · exact ⟨h.of_asks hasks, hasks.files_eq⟩
  · exact ⟨h.of_asks hasks, hasks.files_eq⟩

theorem IsClean.files_closeAll (h : store.IsClean world) :
    (store.closeAll world).2.1.files = world.files :=
  closeCells_of_clean fun cell hcell => h cell (List.mem_mergeSort.1 hcell)

theorem IsClean.files_drop (h : store.IsClean world) : (store.drop world).files = world.files :=
  (Archive.files_drop store world).1.trans h.files_closeAll

end Archive.Store

namespace CommandLine

open ClassFile (parse)

variable {world : World} {threadsText : Option String}

/-! ## What is refused -/

/-- Whether a failure is one of the input, and not of what the command did with it. -/
def Error.IsRefusal : Error → Prop
  | .threads _ | .openManifest .. | .readManifest .. | .manifest .. | .readClass .. | .mapping _
  | .remap .. => True
  | .output _ | .batch _ | .createDirectory _ | .writeClass .. | .archive _ | .closeArchives _
  | .parse .. => False

/-- Whether the input of a command is refused: the thread count or the manifest, the class file, the
mapping or what the class file contains. -/
def Command.IsRefused (fs : FileSystem) (threadsText : Option String) : Command → Prop
  | .apply _ units _ threads =>
    (∃ e, Settings.resolveThreads threads threadsText = .error e)
      ∨ ∃ e, readUnits fs units = .error e
  | .remap classFile flat _ =>
    (∃ e, fs.contents classFile = .error e) ∨ (∃ e, LineMapping.ofFlat flat = .error e)
      ∨ ∃ bytes e, fs.contents classFile = .ok bytes ∧ parse bytes.toList = .error e
  | .lines (.file path _) => ∃ e, fs.contents path = .error e
  | .lines (.member ..) => False

/-- Whether a command ended with a refusal and did nothing. -/
def Refuses (world : World) (outcome : World × Except Error Report) : Prop :=
  outcome.1 = world ∧ ∃ e, outcome.2 = .error e ∧ e.IsRefusal

/-- Whether a command did not end with a refusal. -/
def Accepts (outcome : World × Except Error Report) : Prop :=
  ∀ e, outcome.2 = .error e → ¬e.IsRefusal

theorem isRefusal_of_readUnits {fs : FileSystem} {path : String} {e : Error}
    (h : readUnits fs path = .error e) : e.IsRefusal := by
  rw [readUnits] at h
  split at h
  · cases h
    trivial
  · cases h
    trivial
  · cases hparse : Manifest.parseUnits (fs.data _).bytes.toList with
    | error cause =>
      rw [hparse] at h
      cases h
      trivial
    | ok units =>
      rw [hparse] at h
      contradiction

theorem runApply_refuses (input units output : String) (threads : Option Nat)
    (h : (Command.apply input units output threads).IsRefused world.files threadsText) :
    Refuses world (runApply world input units output threads threadsText) := by
  rw [runApply]
  cases hthreads : Settings.resolveThreads threads threadsText with
  | error e => exact ⟨rfl, _, rfl, trivial⟩
  | ok count =>
    cases hunits : readUnits world.files units with
    | error e => exact ⟨rfl, e, rfl, isRefusal_of_readUnits hunits⟩
    | ok list =>
      rcases h with ⟨e, he⟩ | ⟨e, he⟩
      · exact nomatch hthreads.symm.trans he
      · exact nomatch hunits.symm.trans he

theorem runApply_accepts (input units output : String) (threads : Option Nat)
    (h : ¬(Command.apply input units output threads).IsRefused world.files threadsText) :
    Accepts (runApply world input units output threads threadsText) := by
  rw [runApply]
  cases hthreads : Settings.resolveThreads threads threadsText with
  | error e => exact absurd (.inl ⟨e, hthreads⟩) h
  | ok count =>
    cases hunits : readUnits world.files units with
    | error e => exact absurd (.inr ⟨e, hunits⟩) h
    | ok list =>
      dsimp only
      rcases ZipSink.create world.files output with ⟨files, e | sink⟩
      · rintro _ ⟨⟩
        exact id
      · dsimp only
        intro e he
        cases hrun : (Batch.run input list sink (world.withFiles files)).2.2 with
        | error cause =>
          rw [hrun] at he
          cases he
          exact id
        | ok summary =>
          rw [hrun] at he
          contradiction

/-! ## Remapping a class file -/

/-- What remapping a class file does when its input is not refused. -/
theorem remapFile_eq {fs : FileSystem} {classFile : String} {flat : List Int}
    {output : Option String} {buffer : Buffer} {m : LineMapping} {patched : Bytes}
    {report : RemapReport}
    (hread : fs.contents classFile = .ok buffer) (hmapping : LineMapping.ofFlat flat = .ok m)
    (hremap : remapClass m buffer.toList = .ok (patched, report)) :
    remapFile fs classFile flat output
      = match fs.createDirectories ((FileSystem.Path.parent (output.getD classFile)).getD "") with
        | (fs, .error e) => (fs, .error (.createDirectory e))
        | (fs, .ok ()) =>
          match fs.putContents (output.getD classFile) patched with
          | (fs, .error e) => (fs, .error (.writeClass (output.getD classFile) e))
          | (fs, .ok ()) => (fs, .ok (.remapped classFile (output.getD classFile)
            (decide (patched ≠ buffer.toList)) report)) := by
  rw [remapFile, hread, hmapping]
  dsimp only [Except.mapError, bind, Except.bind]
  rw [hremap]
  rfl

theorem remapFile_of_isRefused {fs : FileSystem} {classFile : String} {flat : List Int}
    {output : Option String}
    (h : (Command.remap classFile flat output).IsRefused fs threadsText) :
    ∃ e, remapFile fs classFile flat output = (fs, .error e) ∧ e.IsRefusal := by
  rw [remapFile]
  cases hread : fs.contents classFile with
  | error e => exact ⟨_, rfl, trivial⟩
  | ok buffer =>
    cases hmapping : LineMapping.ofFlat flat with
    | error e => exact ⟨_, rfl, trivial⟩
    | ok m =>
      rcases h with ⟨e, he⟩ | ⟨e, he⟩ | ⟨buffer', e, hbuffer, hparse⟩
      · exact nomatch hread.symm.trans he
      · exact nomatch hmapping.symm.trans he
      · cases hread.symm.trans hbuffer
        have hremap := (remapClass_eq_error_iff m buffer.toList e).2 hparse
        refine ⟨.remap classFile e, ?_, trivial⟩
        dsimp only [Except.mapError, bind, Except.bind]
        rw [hremap]

theorem exists_of_not_isRefused {fs : FileSystem} {classFile : String} {flat : List Int}
    {output : Option String}
    (h : ¬(Command.remap classFile flat output).IsRefused fs threadsText) :
    ∃ buffer m c, fs.contents classFile = .ok buffer ∧ LineMapping.ofFlat flat = .ok m
      ∧ parse buffer.toList = .ok c := by
  cases hread : fs.contents classFile with
  | error e => exact absurd (.inl ⟨e, hread⟩) h
  | ok buffer =>
    cases hmapping : LineMapping.ofFlat flat with
    | error e => exact absurd (.inr (.inl ⟨e, hmapping⟩)) h
    | ok m =>
      cases hparse : parse buffer.toList with
      | error e => exact absurd (.inr (.inr ⟨buffer, e, hread, hparse⟩)) h
      | ok c => exact ⟨buffer, m, c, rfl, rfl, hparse⟩

/-- What remapping a class file has done when it succeeds: the file of the output path, which is the
class file if none is given, has the remapped bytes, and the report says whether a line changed. -/
def Remaps (fs fs' : FileSystem) (classFile : String) (flat : List Int) (output : Option String)
    (report : Report) : Prop :=
  ∃ buffer m c patched counts changed location id,
    fs.contents classFile = .ok buffer ∧ LineMapping.ofFlat flat = .ok m
      ∧ parse buffer.toList = .ok c ∧ remapClass m buffer.toList = .ok (patched, counts)
      ∧ report = .remapped classFile (output.getD classFile) changed counts
      ∧ (changed = true ↔ ∃ e ∈ c.entries, m.mapLine e.line ≠ e.line)
      ∧ fs.Deposited fs' (output.getD classFile) patched location id

/-- Input that is not refused is remapped, or it cannot be written. -/
theorem remapFile_of_not_isRefused {fs : FileSystem} (hfiles : fs.WellFormed) {classFile : String}
    {flat : List Int} {output : Option String}
    (h : ¬(Command.remap classFile flat output).IsRefused fs threadsText) :
    (∀ e, (remapFile fs classFile flat output).2 = .error e → ¬e.IsRefusal)
      ∧ ∀ report, (remapFile fs classFile flat output).2 = .ok report →
        Remaps fs (remapFile fs classFile flat output).1 classFile flat output report := by
  obtain ⟨buffer, m, c, hread, hmapping, hparse⟩ := exists_of_not_isRefused h
  have hremap : remapClass m buffer.toList = .ok ((c.remap m).toBytes, c.remapReport m) := by
    rw [remapClass, hparse]
    rfl
  have hchanged : decide ((c.remap m).toBytes ≠ buffer.toList) = true
      ↔ ∃ e ∈ c.entries, m.mapLine e.line ≠ e.line := by
    rw [decide_eq_true_iff, ne_eq, ClassFile.toBytes_remap_eq_iff hparse]
    push Not
    rfl
  rw [remapFile_eq hread hmapping hremap]
  -- what can fail now is no refusal: directories cannot be created, or the file not be written
  rcases hmake : fs.createDirectories
    ((FileSystem.Path.parent (output.getD classFile)).getD "") with ⟨made, e | done⟩
  · constructor
    · rintro _ ⟨⟩
      exact id
    · rintro _ ⟨⟩
  · dsimp only
    rcases hput : made.putContents (output.getD classFile) (c.remap m).toBytes with
      ⟨fs', e | done⟩
    · constructor
      · rintro _ ⟨⟩
        exact id
      · rintro _ ⟨⟩
    · constructor
      · rintro _ ⟨⟩
      · rintro _ ⟨⟩
        obtain ⟨location, id, hdeposited⟩ := FileSystem.exists_deposited hfiles hmake hput
        exact ⟨buffer, m, c, _, _, _, location, id, hread, hmapping, hparse, hremap, rfl,
          hchanged, hdeposited⟩

/-! ## Listing lines -/

theorem files_readMember (world : World) (archive entry : String) :
    (readMember world archive entry).1.files = world.files := by
  have hclean : Archive.Store.empty.IsClean world := fun _ hcell => absurd hcell List.not_mem_nil
  obtain ⟨hread, hfiles⟩ := hclean.read archive entry
  rw [readMember]
  rcases hresult : Archive.Store.empty.read world archive entry with ⟨store, opened, e | bytes⟩
  · rw [hresult] at hread hfiles
    exact hread.files_drop.trans hfiles
  · rw [hresult] at hread hfiles
    have hclose := hread.files_closeAll.trans hfiles
    dsimp only at hclose ⊢
    rcases hclosed : store.closeAll opened with ⟨closed, after, _ | ⟨failure, failures⟩⟩
    · rwa [hclosed] at hclose
    · rwa [hclosed] at hclose

/-- Listing lines changes no file. -/
theorem files_listLines (world : World) (source : ClassSource) :
    (listLines world source).1.files = world.files := by
  cases source with
  | file path archive => rfl
  | member archive name => exact files_readMember world archive (entryOfName name)

theorem listLines_file (world : World) (path : String) (archive : Option String) :
    (listLines world (.file path archive)).1 = world
      ∧ ((∃ e, world.files.contents path = .error e)
        ↔ ∃ e, (listLines world (.file path archive)).2 = .error e ∧ e.IsRefusal) := by
  refine ⟨rfl, ?_⟩
  rw [listLines, readSource]
  dsimp only
  cases world.files.contents path with
  | error e => exact ⟨fun _ => ⟨_, rfl, trivial⟩, fun _ => ⟨e, rfl⟩⟩
  | ok buffer =>
    refine ⟨nofun, ?_⟩
    dsimp only [Except.map, Except.mapError, bind, Except.bind]
    cases parse buffer.toList with
    | error e =>
      rintro ⟨_, ⟨⟩, h⟩
      exact h.elim
    | ok c => exact nofun

theorem not_isRefusal_of_readMember {archive entry : String} {e : Error}
    (h : (readMember world archive entry).2 = .error e) : ¬e.IsRefusal := by
  rw [readMember] at h
  rcases hread : Archive.Store.empty.read world archive entry with ⟨store, opened, e' | bytes⟩
  · rw [hread] at h
    cases h
    exact id
  · rw [hread] at h
    dsimp only at h
    rcases hclose : store.closeAll opened with ⟨closed, after, _ | ⟨failure, failures⟩⟩
    · rw [hclose] at h
      contradiction
    · rw [hclose] at h
      cases h
      exact id

theorem listLines_member_accepts (world : World) (archive name : String) :
    Accepts (listLines world (.member archive name)) := by
  intro e he
  rw [listLines, readSource] at he
  dsimp only at he
  cases hread : (readMember world archive (entryOfName name)).2 with
  | error e' =>
    rw [hread] at he
    cases he
    exact not_isRefusal_of_readMember hread
  | ok bytes =>
    rw [hread] at he
    dsimp only [bind, Except.bind] at he
    cases hparse : parse bytes with
    | error e' =>
      rw [hparse] at he
      cases he
      exact id
    | ok c =>
      rw [hparse] at he
      contradiction

/-! ## Commands -/

theorem Command.run_refuses (world : World) (threadsText : Option String) {command : Command}
    (h : command.IsRefused world.files threadsText) :
    Refuses world (command.run world threadsText) := by
  cases command with
  | apply input units output threads => exact runApply_refuses input units output threads h
  | remap classFile flat output =>
    obtain ⟨e, hremap, he⟩ := remapFile_of_isRefused h
    rw [run, hremap]
    exact ⟨rfl, e, rfl, he⟩
  | lines source =>
    cases source with
    | file path archive =>
      obtain ⟨hworld, hfails⟩ := listLines_file world path archive
      exact ⟨hworld, hfails.1 h⟩
    | member archive name => exact h.elim

theorem Command.run_accepts (world : World) (threadsText : Option String)
    (hfiles : world.files.WellFormed) {command : Command}
    (h : ¬command.IsRefused world.files threadsText) :
    Accepts (command.run world threadsText) := by
  cases command with
  | apply input units output threads => exact runApply_accepts input units output threads h
  | remap classFile flat output => exact (remapFile_of_not_isRefused hfiles h).1
  | lines source =>
    cases source with
    | file path archive =>
      exact fun e he hrefusal => h ((listLines_file world path archive).2.2 ⟨e, he, hrefusal⟩)
    | member archive name => exact listLines_member_accepts world archive name

/-! ## The program -/

/-- The world in which a command of an invocation runs. -/
def unlogged (world : World) : World := { world with log := [] }

theorem Invocation.result_run (invocation : Invocation) (environment : Environment)
    (world : World) :
    (invocation.run environment world).2.result
      = (invocation.command.run (unlogged world) environment.threads).2 := by
  rw [Invocation.run, unlogged]

theorem Invocation.world_run (invocation : Invocation) (environment : Environment)
    (world : World) :
    (invocation.run environment world).1
      = { (invocation.command.run (unlogged world) environment.threads).1 with
        log := (invocation.command.run (unlogged world) environment.threads).1.log
          ++ world.log } := by
  rw [Invocation.run, unlogged]

theorem Command.run_remap (world : World) (classFile : String) (flat : List Int)
    (output : Option String) :
    (Command.remap classFile flat output).run world threadsText
      = (world.withFiles (remapFile world.files classFile flat output).1,
        (remapFile world.files classFile flat output).2) := by
  rw [Command.run]

/-- Every command checks its input first. It ends with a refusal exactly if its input is refused,
and then nothing has happened. Listing lines changes no file. A class file that is remapped is
written to the file of its output path; besides that file only directories on the way to it are new,
and the report says whether a line changed. -/
theorem Invocation.run_checksFirst (hfiles : world.files.WellFormed) (invocation : Invocation)
    (environment : Environment) :
    (invocation.command.IsRefused world.files environment.threads
        ↔ ∃ e, (invocation.run environment world).2.result = .error e ∧ e.IsRefusal)
      ∧ (invocation.command.IsRefused world.files environment.threads →
        (invocation.run environment world).1 = world)
      ∧ (∀ source, invocation.command = .lines source →
        (invocation.run environment world).1.files = world.files)
      ∧ ∀ classFile flat output report, invocation.command = .remap classFile flat output →
        (invocation.run environment world).2.result = .ok report →
          ∃ files, (invocation.run environment world).1 = world.withFiles files
            ∧ Remaps world.files files classFile flat output report := by
  rw [Invocation.result_run, Invocation.world_run]
  have hrefuses : invocation.command.IsRefused world.files environment.threads →
      Refuses (unlogged world) (invocation.command.run (unlogged world) environment.threads) :=
    Command.run_refuses (unlogged world) environment.threads
  refine ⟨⟨fun h => (hrefuses h).2, fun ⟨e, he, hrefusal⟩ => ?_⟩, fun h => ?_,
    fun source hsource => ?_, fun classFile flat output report hcommand hok => ?_⟩
  · by_contra h
    exact Command.run_accepts (unlogged world) environment.threads hfiles h e he hrefusal
  · rw [(hrefuses h).1, unlogged, List.nil_append]
  · rw [hsource]
    exact files_listLines (unlogged world) source
  · rw [hcommand, Command.run_remap] at hok ⊢
    have haccepted : ¬(Command.remap classFile flat output).IsRefused world.files none := by
      intro hrefused
      obtain ⟨e, he, -⟩ := remapFile_of_isRefused hrefused
      have hfail : (remapFile world.files classFile flat output).2 = .error e := by rw [he]
      exact nomatch hfail.symm.trans hok
    exact ⟨_, rfl, (remapFile_of_not_isRefused hfiles haccepted).2 report hok⟩

/-! ## A class file, a mapping that is none, and a device -/

/-- A class file beside the devices. -/
def classFiles : FileSystem where
  nodes := (["A.class"], .file 2) :: (FileSystem.bare []).nodes
  files := (FileSystem.bare []).files.push
    ⟨ClassFile.twoLines.toArray, FileSystem.newFileMode, .disk⟩
  current := []

theorem wellFormed_classFiles : classFiles.WellFormed :=
  FileSystem.wellFormed_of_forall nofun (by simp [classFiles, FileSystem.bare])

/-- The invocation that remaps it by a flat list. -/
def remapTo (flat : List Int) (output : String) : Invocation :=
  ⟨.remap "A.class" flat (some output), false, false⟩

/-- An environment that sets nothing. -/
def noSettings : Environment := ⟨none, none, none, none, none⟩

/-- A flat list of odd length is refused. The pair of 10 and 20 is not, and the class file that is
written to a new directory has the line 20. -/
theorem Invocation.run_checksFirst_classFiles :
    ((remapTo [10] "out/B.class").run noSettings (.ofFiles classFiles)).1 = .ofFiles classFiles
      ∧ ∃ files, ((remapTo [10, 20] "out/B.class").run noSettings (.ofFiles classFiles)).1
          = (World.ofFiles classFiles).withFiles files
        ∧ Remaps classFiles files "A.class" [10, 20] (some "out/B.class")
          (.remapped "A.class" "out/B.class" true ⟨1, 1, 0, 1⟩) := by
  have hrefused := @Invocation.run_checksFirst (.ofFiles classFiles) wellFormed_classFiles
    (remapTo [10] "out/B.class") noSettings
  have haccepted := @Invocation.run_checksFirst (.ofFiles classFiles) wellFormed_classFiles
    (remapTo [10, 20] "out/B.class") noSettings
  refine ⟨hrefused.2.1 (.inr (.inl ⟨_, rfl⟩)), haccepted.2.2.2 _ _ _ _ rfl ?_⟩
  decide +kernel

/-- A class file that is remapped to a device that keeps no data is not found there. -/
theorem not_forall_contents_eq_remapClass :
    ¬∀ (invocation : Invocation) (environment : Environment) (world : World),
      world.files.WellFormed → ∀ classFile flat output report,
        invocation.command = .remap classFile flat output →
        (invocation.run environment world).2.result = .ok report →
          ∃ buffer m patched counts, world.files.contents classFile = .ok buffer
            ∧ LineMapping.ofFlat flat = .ok m ∧ remapClass m buffer.toList = .ok (patched, counts)
            ∧ (invocation.run environment world).1.files.contents (output.getD classFile)
              = .ok patched.toArray := by
  intro hall
  obtain ⟨buffer, m, patched, counts, -, -, hremap, hcontents⟩ :=
    hall (remapTo [10, 20] "/dev/null") noSettings (.ofFiles classFiles) wellFormed_classFiles
      "A.class" [10, 20] (some "/dev/null")
      (.remapped "A.class" "/dev/null" true ⟨1, 1, 0, 1⟩) rfl (by decide +kernel)
  have hnothing : ((remapTo [10, 20] "/dev/null").run noSettings
      (.ofFiles classFiles)).1.files.contents "/dev/null" = .ok #[] := by decide +kernel
  -- nothing is read from the device, but what is remapped is a class file
  have hempty : patched = [] := by
    have harray := Except.ok.inj (hcontents.symm.trans hnothing)
    exact congrArg Array.toList harray
  obtain ⟨c, hparse, hpatched, -⟩ := exists_of_remapClass_eq_ok m hremap
  obtain ⟨d, hread, -⟩ := ClassFile.exists_parse_toBytes hparse (ClassFile.edited_remap m c)
  have hshort : parse [] = .error (.truncated 0 4) := by decide +kernel
  rw [← hpatched, hempty, hshort] at hread
  exact nomatch hread

end CommandLine

end Reline
