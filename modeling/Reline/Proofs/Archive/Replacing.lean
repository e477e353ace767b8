/-
  Reline.Proofs.Archive.Replacing

  Archives whose files can be replaced.

  Whether a file can be created beside an archive, written to, and moved over the
  archive is up to the files alone. Where all of it can be done, putting writes
  into the archive's file can fail for one reason only: an entry that cannot be
  opened, and of several the first one is reported.

  Main statements: `rebuilt_eq_error_iff`, `CanReplace.flush_eq_ok_iff`,
  `CanReplace.flush_eq_error_iff`, `canReplace_of_found`.
-/

import Reline.Proofs.Archive.Placement

namespace Reline.Archive.Handle

open FileSystem

variable {fs created : FileSystem} {source : Source} {staged : OrderedTable String Bytes}
  {path : String} {file : Buffer} {id : FileId}

/-! ## The first entry that cannot be opened -/

/-- Whether an entry of a list is the first one that cannot be opened, and why. -/
def Refuses (file : Buffer) (entries : List Zip.Entry) (e : Zip.Error) : Prop :=
  ∃ before entry after, entries = before ++ entry :: after
    ∧ (∀ b ∈ before, ∃ compressed, b.openIn file = .ok compressed) ∧ entry.openIn file = .error e

theorem refuses_cons_iff {entry : Zip.Entry} {entries : List Zip.Entry} {e : Zip.Error} :
    Refuses file (entry :: entries) e
      ↔ entry.openIn file = .error e
        ∨ (∃ compressed, entry.openIn file = .ok compressed) ∧ Refuses file entries e := by
  constructor
  · rintro ⟨before, entry', after, heq, hopen, herror⟩
    cases before with
    | nil =>
      cases heq
      exact .inl herror
    | cons b before =>
      obtain ⟨rfl, rfl⟩ := List.cons.inj heq
      obtain ⟨hfirst, hbefore⟩ := List.forall_mem_cons.1 hopen
      exact .inr ⟨hfirst, before, entry', after, rfl, hbefore, herror⟩
  · rintro (herror | ⟨hfirst, before, entry', after, rfl, hopen, herror⟩)
    · exact ⟨[], entry, entries, rfl, List.forall_mem_nil _, herror⟩
    · exact ⟨entry :: before, entry', after, rfl, List.forall_mem_cons.2 ⟨hfirst, hopen⟩, herror⟩

/-- Going through the entries fails for the first one that cannot be opened, and for no other
reason. -/
theorem rebuildEntries_eq_error_iff {done : List Zip.Item} {entries : List Zip.Entry}
    {e : Zip.Error} :
    rebuildEntries file staged done entries = .error e ↔ Refuses file entries e := by
  induction entries generalizing staged done with
  | nil =>
    rw [rebuildEntries]
    constructor
    · intro h
      contradiction
    · rintro ⟨before, entry, after, heq, -⟩
      exact absurd heq.symm (List.append_ne_nil_of_right_ne_nil _ (List.cons_ne_nil _ _))
  | cons entry entries ih =>
    rw [rebuildEntries, refuses_cons_iff]
    cases hopen : entry.openIn file with
    | error e' => simp [bind, Except.bind]
    | ok compressed =>
      dsimp only [bind, Except.bind]
      -- whether or not the entry is replaced, the others are gone through
      split
      case h_1 => simp [ih]
      case h_2 => simp [ih]

theorem rebuilt_eq_error_iff {directory : Zip.Directory} {e : Zip.Error} :
    rebuilt file directory staged = .error e ↔ Refuses file directory.entries e := by
  have hentries : rebuildEntries file staged [] directory.entries = .error e
      ↔ Refuses file directory.entries e := rebuildEntries_eq_error_iff
  rw [← hentries, rebuilt]
  cases rebuildEntries file staged [] directory.entries with
  | error e' => simp [bind, Except.bind]
  | ok pair => simp [bind, Except.bind, pure, Except.pure]

/-- An archive can be built anew if all its entries can be opened. -/
theorem exists_rebuilt_iff {directory : Zip.Directory} :
    (∃ bytes, rebuilt file directory staged = .ok bytes)
      ↔ ∀ e ∈ directory.entries, ∃ compressed, e.openIn file = .ok compressed := by
  have hentries (entries : List Zip.Entry) :
      (¬ ∃ e, Refuses file entries e)
        ↔ ∀ e ∈ entries, ∃ compressed, e.openIn file = .ok compressed := by
    induction entries with
    | nil =>
      refine ⟨fun _ => List.forall_mem_nil _, ?_⟩
      rintro - ⟨e, before, entry, after, heq, -⟩
      exact absurd heq.symm (List.append_ne_nil_of_right_ne_nil _ (List.cons_ne_nil _ _))
    | cons entry entries ih =>
      rw [List.forall_mem_cons, ← ih]
      simp only [refuses_cons_iff]
      cases entry.openIn file <;> simp
  rw [← hentries]
  constructor
  · rintro ⟨bytes, hbytes⟩ ⟨e, hrefuses⟩
    cases hbytes.symm.trans (rebuilt_eq_error_iff.2 hrefuses)
  · intro hnone
    cases hrebuilt : rebuilt file directory staged with
    | ok bytes => exact ⟨bytes, rfl⟩
    | error e => exact absurd ⟨e, rebuilt_eq_error_iff.1 hrebuilt⟩ hnone

/-! ## Files that can be replaced -/

/-- Whether a file can be created beside an archive, written to, and moved over the archive with its
permissions, whatever its bytes are. -/
structure CanReplace (fs : FileSystem) (path : String) (id : FileId) (created : FileSystem) :
    Prop where
  creation : fs.createFile (temporaryPath path) = .ok (id, created)
  replacing : ∀ bytes, ∃ written installed, created.write id 0 bytes = .ok written
    ∧ written.sync id = .ok () ∧ install written (temporaryPath path) path = (installed, .ok ())

theorem CanReplace.medium (h : CanReplace fs path id created) :
    (created.data id).medium = .disk := by
  obtain ⟨written, installed, hwrite, hsync, -⟩ := h.replacing []
  exact (eq_of_write_of_sync hwrite hsync).1

/-- Where an archive's file can be replaced and the archive can be built anew, it is replaced. -/
theorem CanReplace.exists_installed (h : CanReplace fs path id created) {bytes : Bytes}
    (hrebuilt : rebuilt (source.bytes created) source.directory staged = .ok bytes) :
    ∃ written installed, created.write id 0 bytes = .ok written ∧ written.sync id = .ok ()
      ∧ install written (temporaryPath path) path = (installed, .ok ())
      ∧ flush fs source staged path = (installed, .ok ()) := by
  obtain ⟨written, installed, hwrite, hsync, hinstall⟩ := h.replacing bytes
  refine ⟨written, installed, hwrite, hsync, hinstall, ?_⟩
  rw [flush, rebuild, h.creation]
  dsimp only
  rw [h.medium, rebuiltPart, hrebuilt]
  dsimp only
  rw [hwrite]
  dsimp only
  rw [hsync]
  dsimp only [Except.mapError]
  rw [hinstall]

/-- Where an archive's file can be replaced, nothing but its entries decides whether it is. -/
theorem flush_of_canReplace (h : CanReplace fs path id created) :
    (flush fs source staged path).2
      = ((rebuilt (source.bytes created) source.directory staged).mapError
          (.ofZip (temporaryPath path))).map fun _ => () := by
  cases hrebuilt : rebuilt (source.bytes created) source.directory staged with
  | error e =>
    rw [flush, rebuild, h.creation]
    dsimp only
    rw [h.medium, rebuiltPart, hrebuilt]
    dsimp only
    split <;> rfl
  | ok bytes =>
    obtain ⟨written, installed, -, -, -, hflush⟩ := h.exists_installed hrebuilt
    rw [hflush]
    rfl

theorem CanReplace.flush_eq_ok_iff (h : CanReplace fs path id created) :
    (flush fs source staged path).2 = .ok ()
      ↔ ∃ bytes, rebuilt (source.bytes created) source.directory staged = .ok bytes := by
  rw [flush_of_canReplace h]
  cases rebuilt (source.bytes created) source.directory staged with
  | ok bytes => exact ⟨fun _ => ⟨bytes, rfl⟩, fun _ => rfl⟩
  | error e =>
    constructor
    · intro hok
      contradiction
    · rintro ⟨bytes, hbytes⟩
      contradiction

theorem CanReplace.flush_eq_error_iff (h : CanReplace fs path id created) {error : Error} :
    (flush fs source staged path).2 = .error error
      ↔ ∃ reason, rebuilt (source.bytes created) source.directory staged = .error reason
        ∧ error = .ofZip (temporaryPath path) reason := by
  rw [flush_of_canReplace h]
  cases rebuilt (source.bytes created) source.directory staged with
  | ok bytes =>
    constructor
    · intro herror
      contradiction
    · rintro ⟨reason, hreason, -⟩
      contradiction
  | error e =>
    constructor
    · intro herror
      cases herror
      exact ⟨e, rfl, rfl⟩
    · rintro ⟨reason, hreason, rfl⟩
      cases hreason
      rfl

/-! ## The file that is moved -/

/-- A file that was just created holds what is written to it. -/
theorem bytes_of_created (hfiles : WellFormed fs) (habsolute : Path.isAbsolute path = true)
    (hcreate : fs.createFile path = .ok (id, created)) {bytes : Bytes} {written : FileSystem}
    (hwrite : created.write id 0 bytes = .ok written) (hsync : written.sync id = .ok ()) :
    (written.data id).bytes = bytes.toArray := by
  obtain ⟨location, hcreates⟩ := exists_creates_of_createFile hfiles habsolute hcreate
  have hempty : (created.data id).bytes = #[] := by
    rcases exists_of_createFile hcreate with
      ⟨l, slash, hresolve, rfl⟩ | ⟨l, slash, hresolve, rfl, rfl⟩
    · have hid := hcreates.present
      rw [size_modifyData] at hid
      rw [data_modifyData hid, if_pos rfl]
    · have hgrow : (fs.addData ⟨#[], newFileMode, .disk⟩).2.putNode l (.file fs.files.size)
          = fs.grow l ⟨#[], newFileMode, .disk⟩ := rfl
      rw [hgrow, data_grow, if_pos rfl]
  obtain ⟨-, rfl⟩ := eq_of_write_of_sync hwrite hsync
  rw [data_modifyData hcreates.present, if_pos rfl]
  dsimp only
  rw [hempty, Buffer.overwrite_empty]

/-- A file to which the path beside the archive leads is installed with its bytes. -/
theorem exists_permitted_of_install {built installed : FileSystem} {location : Location}
    (hid : id < built.files.size)
    (hinspect : built.inspect (temporaryPath path) = .ok (location, .file id))
    (hinstall : install built (temporaryPath path) path = (installed, .ok ())) :
    ∃ permitted, Refilled built permitted id ∧ (permitted.data id).bytes = (built.data id).bytes
      ∧ permitted.renameFile (temporaryPath path) path = .ok installed := by
  obtain ⟨mode, permitted, hset, hrename⟩ := exists_of_install hinstall
  refine ⟨permitted, ?_⟩
  rcases exists_of_setMode hset with ⟨l, id', hfile, rfl⟩ | ⟨l, old, hdirectory, -⟩
  · cases hinspect.symm.trans hfile
    refine ⟨refilled_modifyData .., ?_, hrename⟩
    rw [data_modifyData hid, if_pos rfl]
  · cases hinspect.symm.trans hdirectory

/-- Unless a link stands beside the archive, it is the new file that is moved. -/
theorem exists_moved_of_renameFile (habsolute : Path.isAbsolute path = true)
    {location : Location} {permitted installed : FileSystem}
    (hcreates : Creates fs created (temporaryPath path) location id)
    (hfilled : Filled fs permitted location id)
    (hlink : ∀ l goal slash,
      fs.resolve .entry (temporaryPath path) ≠ .ok (.found l (.link goal) slash))
    (hrename : permitted.renameFile (temporaryPath path) path = .ok installed) :
    ∃ there, NamesPlace fs path there ∧ installed.node? there = some (.file id)
      ∧ installed.data id = permitted.data id := by
  obtain ⟨l, node, there, hsource, hthere, hinstalled⟩ := exists_of_renameFile hrename
  obtain rfl : node = .file id := by
    rcases beside_before hfilled habsolute hsource with hstood | ⟨rfl, -⟩
    · -- what stood there already is the file that was emptied
      rcases hcreates.entry_cases hstood with ⟨goal, rfl⟩ | hfile
      · exact absurd hstood (hlink _ goal _)
      · exact hfile
    · have hnode := (mem_way_of_found hsource).2
      exact Option.some.inj (hnode.symm.trans hfilled.node?_location)
  have hne : there ≠ [] := by
    rcases hthere with ⟨old, hfound⟩ | hvacant
    · rcases (ends_of_resolve habsolute hfound).found_cases with ⟨-, hroot⟩ | ⟨hplace, -, -⟩
      · exact absurd hroot (ne_directory_of_renameFile hrename hfound _)
      · exact hplace.ne_nil
    · cases ends_of_resolve habsolute hvacant with
      | vacant above isName stands => exact (InDirectory.mk above isName).ne_nil
  have hnames : NamesPlace permitted path there := by
    rcases hthere with ⟨old, hfound⟩ | hvacant
    · exact .inl ⟨old, false, hfound⟩
    · exact .inr ⟨false, hvacant⟩
  refine ⟨there, namesPlace_before hfilled habsolute hnames, ?_, by rw [hinstalled]; rfl⟩
  rw [hinstalled, node?_putNode hne, if_pos rfl]

/-- An archive that was built anew stands at the archive's place after a flush, unless a link stood
beside it. -/
theorem exists_placed_of_canReplace (hfiles : WellFormed fs)
    (habsolute : Path.isAbsolute path = true) (h : CanReplace fs path id created)
    (hlink : ∀ l goal slash,
      fs.resolve .entry (temporaryPath path) ≠ .ok (.found l (.link goal) slash)) {bytes : Bytes}
    (hrebuilt : rebuilt (source.bytes created) source.directory staged = .ok bytes) :
    ∃ there, NamesPlace fs path there
      ∧ (flush fs source staged path).1.node? there = some (.file id)
      ∧ ((flush fs source staged path).1.data id).bytes = bytes.toArray := by
  have htemporary := isAbsolute_temporaryPath habsolute
  obtain ⟨location, hcreates⟩ := exists_creates_of_createFile hfiles htemporary h.creation
  obtain ⟨written, installed, hwrite, hsync, hinstall, hflush⟩ := h.exists_installed hrebuilt
  have hwritten := refilled_write hwrite
  have hfilled := hcreates.filled.of_refilled hwritten
  obtain ⟨permitted, hpermitted, hbytes, hrename⟩ := exists_permitted_of_install
    (hwritten.size.symm ▸ hcreates.present) (hcreates.inspect hfilled) hinstall
  obtain ⟨there, hnames, hnode, hdata⟩ := exists_moved_of_renameFile habsolute hcreates
    (hfilled.of_refilled hpermitted) hlink hrename
  rw [hflush]
  refine ⟨there, hnames, hnode, ?_⟩
  rw [hdata, hbytes, bytes_of_created hfiles htemporary h.creation hwrite hsync]

/-! ## Where it can be done -/

/-- Where nothing stands beside an archive and a file can be created there, the archive's file can
be replaced, if the archive's path shows permissions when the new file is there. -/
theorem canReplace_of_mode (habsolute : Path.isAbsolute path = true) {beside there : Location}
    {node : Node} {mode : Nat}
    (hcreate : fs.resolve .create (temporaryPath path) = .ok (.vacant beside false))
    (hbeside : fs.resolve .entry (temporaryPath path) = .ok (.vacant beside false))
    (hfound : fs.resolve .entry path = .ok (.found there node false))
    (hnode : ∀ mode, node ≠ .directory mode)
    (hmode : ∀ bytes, (fs.grow beside ⟨bytes, newFileMode, .disk⟩).mode path = .ok mode) :
    CanReplace fs path fs.files.size (fs.grow beside ⟨#[], newFileMode, .disk⟩) := by
  have hvacant := (mem_way_of_vacant hcreate).2
  have hne := ne_nil_of_vacant (isAbsolute_temporaryPath habsolute) hbeside
  refine ⟨createFile_of_vacant hcreate, fun bytes => ?_⟩
  -- the path still leads to what it led to when the new file is there
  have hstill (data : FileData) :
      (fs.grow beside data).resolve .entry path = .ok (.found there node false) := by
    obtain ⟨hnul, hempty, hshort, hleads⟩ := resolve_eq_ok_iff.1 hfound
    exact resolve_eq_ok_iff.2
      ⟨hnul, hempty, hshort, (filled_grow hne hvacant data).leads_found hleads⟩
  have hdestination (data : FileData) :
      ((fs.grow beside data).look .entry path).bind Sight.destination = .ok there := by
    rw [look, hstill]
    cases node with
    | directory mode => exact absurd rfl (hnode mode)
    | file id => rfl
    | link goal => rfl
  have hinstall : install (fs.grow beside ⟨bytes.toArray, newFileMode, .disk⟩) (temporaryPath path)
      path = (((fs.grow beside ⟨bytes.toArray, mode, .disk⟩).dropNode beside).putNode there
        (.file fs.files.size), .ok ()) := by
    rw [install, hmode]
    dsimp only
    rw [setMode_grow hne hcreate]
    dsimp only
    rw [renameFile_eq_look (resolve_entry_grow hne hbeside _), hdestination]
    rfl
  exact ⟨_, _, write_grow fs beside newFileMode bytes, sync_grow .., hinstall⟩

/-- The archive's file can be replaced if the archive's path shows permissions before. -/
theorem canReplace_of_found (hfiles : WellFormed fs) (habsolute : Path.isAbsolute path = true)
    {beside there : Location} {node : Node} {mode : Nat}
    (hcreate : fs.resolve .create (temporaryPath path) = .ok (.vacant beside false))
    (hbeside : fs.resolve .entry (temporaryPath path) = .ok (.vacant beside false))
    (hfound : fs.resolve .entry path = .ok (.found there node false))
    (hnode : ∀ mode, node ≠ .directory mode) (hmode : fs.mode path = .ok mode) :
    CanReplace fs path fs.files.size (fs.grow beside ⟨#[], newFileMode, .disk⟩) := by
  have hne := ne_nil_of_vacant (isAbsolute_temporaryPath habsolute) hbeside
  exact canReplace_of_mode habsolute hcreate hbeside hfound hnode fun bytes =>
    mode_grow hfiles habsolute hne (mem_way_of_vacant hcreate).2 _ hmode

end Reline.Archive.Handle
