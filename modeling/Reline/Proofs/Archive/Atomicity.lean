/-
  Reline.Proofs.Archive.Atomicity

  What can be seen of a close while it is under way, and after it failed.

  Before its last step a close creates a file beside the archive, writes to it, and
  gives it permissions. If nothing stood there, nothing else is different in any of
  the states that it goes through, whatever part of the file has been written, and
  removing the file leads back from each of them. So a close that fails leaves
  everything as it was. The last step of one that succeeds moves the file, which is
  complete then, to the archive's place.

  A reader of the archive's path sees the unfinished file only if the path leads to
  the place beside the archive: a link can have come to the archive's place that
  leads there. Such a path also shows permissions that were not to be had before.

  Main statement: `close_atomic`.
-/

import Mathlib.Logic.Relation
import Reline.Proofs.Archive.Layout
import Reline.Proofs.Archive.Registry
import Reline.Proofs.FileSystem.Reading

namespace Reline.Archive

open FileSystem

variable {fs fs' now : FileSystem} {path : String}

/-! ## The place beside an archive -/

theorem isEntry_temporaryPath (name : String) : IsEntry (Handle.temporaryPath name) := by
  have hlength : 4 ≤ (Handle.temporaryPath name).toList.length := by
    rw [Handle.temporaryPath, String.toList_append, List.length_append]
    exact Nat.le_add_left ..
  have hlong {short : String} (hshort : short.toList.length < 4) :
      Handle.temporaryPath name ≠ short := by
    rintro rfl
    exact absurd hlength (Nat.not_le.2 hshort)
  refine ⟨?_, hlong (by decide)⟩
  rw [Path.isNeutral, decide_eq_false (hlong (by decide)), decide_eq_false (hlong (by decide))]
  rfl

/-- The archive's path does not name the place at which the archive is built anew. -/
theorem NamesPlace.ne_beside (habsolute : Path.isAbsolute path = true) {there beside : Location}
    (h : NamesPlace fs path there)
    (hbeside : fs.resolve .entry (Handle.temporaryPath path) = .ok (.vacant beside false)) :
    there ≠ beside := by
  have htemporary := Handle.isAbsolute_temporaryPath habsolute
  rcases h with ⟨node, slash, hfound⟩ | ⟨slash, hvacant⟩
  · rintro rfl
    cases (mem_way_of_found hfound).2.symm.trans (mem_way_of_vacant hbeside).2
  · cases slash with
    | false =>
      have hdestination : (fs.look .entry path).bind Sight.destination = .ok there := by
        rw [look_eq_vacant_iff.2 hvacant]
        rfl
      obtain ⟨dir, last, hlies, rfl, -, -⟩ := exists_liesIn_of_destination habsolute hdestination
      have htarget := (liesIn_temporaryPath hlies).eq_targetAt htemporary hbeside
      rw [targetAt] at htarget
      split at htarget
      case h_1 =>
        cases htarget
        exact fun heq =>
          temporaryPath_ne last (List.singleton_inj.1 (List.append_cancel_left heq)).symm
      case h_2 => cases htarget
    | true =>
      -- behind a slash after a vacant name nothing can be created
      obtain ⟨front, last, hsegments⟩ : ∃ front last, Path.segments path = front ++ [last] := by
        rcases List.eq_nil_or_concat (Path.segments path) with hnil | ⟨front, last, hconcat⟩
        · exact absurd (List.map_eq_nil_iff.1 hnil) (Path.splitSlash_ne_nil _)
        · exact ⟨front, last, hconcat.trans List.concat_eq_append⟩
      obtain ⟨-, -, -, hleads⟩ := resolve_eq_ok_iff.1 hvacant
      obtain ⟨-, -, -, hleads'⟩ := resolve_eq_ok_iff.1 hbeside
      rw [if_pos habsolute, hsegments] at hleads
      rw [if_pos htemporary, Handle.temporaryPath, Path.segments_append hsegments (by decide)]
        at hleads'
      have herror := hleads.follow_concat_of_vacant .entry (isEntry_temporaryPath last)
      rw [List.dropLast_concat] at herror
      cases herror.symm.trans (follow_eq_ok_iff.2 hleads')

/-- Where the path beside the archive would create a file, and that nothing stands there. -/
structure IsBeside (fs : FileSystem) (path : String) (beside : Location) : Prop where
  create : fs.resolve .create (Handle.temporaryPath path) = .ok (.vacant beside false)
  entry : fs.resolve .entry (Handle.temporaryPath path) = .ok (.vacant beside false)
  ne_nil : beside ≠ []
  vacant : fs.node? beside = none

/-! ## States of a close -/

/-- An operation on the file that is built beside an archive. -/
inductive Builds (temporary : String) (id : FileId) (now next : FileSystem) : Prop where
  /-- Bytes are written to it. -/
  | write (offset : Nat) (bytes : Bytes) (written : now.write id offset bytes = .ok next)
  /-- It gets permissions. -/
  | permit (mode : Nat) (permitted : now.setMode temporary mode = .ok next)

/-- The states that a close goes through before its last step. -/
inductive Underway (fs : FileSystem) (path : String) : FileSystem → Prop where
  /-- Nothing has been done. -/
  | start : Underway fs path fs
  /-- A file was created beside the archive and is being built. -/
  | building {id : FileId} {created now : FileSystem}
    (creation : fs.createFile (Handle.temporaryPath path) = .ok (id, created))
    (steps : Relation.ReflTransGen (Builds (Handle.temporaryPath path) id) created now) :
    Underway fs path now

/-- The last step of a close, and what the close comes to. -/
inductive Finishes (path : String) (now fs' : FileSystem) : Except Error Unit → Prop where
  /-- The file is moved over the archive. -/
  | moved (move : now.renameFile (Handle.temporaryPath path) path = .ok fs') :
    Finishes path now fs' (.ok ())
  /-- After a failure the file is removed. -/
  | withdrawn {e : Error} (removal : now.removeFile (Handle.temporaryPath path) = .ok fs') :
    Finishes path now fs' (.error e)
  /-- After a failure nothing can be removed. -/
  | left {e : Error} {e' : IoError}
    (removal : now.removeFile (Handle.temporaryPath path) = .error e') (same : fs' = now) :
    Finishes path now fs' (.error e)

namespace Handle

variable {source : Source} {staged : OrderedTable String Bytes}

/-- Building an archive anew goes through such states, if a file can be created for it. -/
theorem builds_of_rebuild (fs : FileSystem) (source : Source) (staged : OrderedTable String Bytes)
    (temporary : String) :
    (∃ e, rebuild fs source staged temporary = (fs, .error e))
      ∨ ∃ id created built result, fs.createFile temporary = .ok (id, created)
        ∧ Relation.ReflTransGen (Builds temporary id) created built
        ∧ rebuild fs source staged temporary = (built, result) := by
  refine (rebuild_writes fs source staged temporary).imp_right ?_
  rintro ⟨id, created, built, result, hcreate, rfl | ⟨bytes, hwrite⟩, hrebuild⟩
  · exact ⟨id, built, built, result, hcreate, .refl, hrebuild⟩
  · exact ⟨id, created, built, result, hcreate, .single (.write _ _ hwrite), hrebuild⟩

/-- Installing an archive goes on through such states, up to the move. -/
theorem builds_of_install (built : FileSystem) (temporary path : String) (id : FileId) :
    ∃ now, Relation.ReflTransGen (Builds temporary id) built now
      ∧ ((∃ e, install built temporary path = (now, .error e))
        ∨ ∃ fs', now.renameFile temporary path = .ok fs'
          ∧ install built temporary path = (fs', .ok ())) := by
  obtain ⟨now, hset, hinstall⟩ := install_permits built temporary path
  refine ⟨now, ?_, hinstall⟩
  rcases hset with rfl | ⟨mode, hset⟩
  · exact .refl
  · exact .single (.permit mode hset)

/-- What a flush does after a failure is a last step. -/
theorem finishes_of_failure {e : Error} {result : FileSystem × Except Error Unit}
    (h : result = match now.removeFile (temporaryPath path) with
      | .ok fs' => (fs', .error e)
      | .error _ => (now, .error e)) :
    Finishes path now result.1 result.2 := by
  subst h
  cases hremove : now.removeFile (temporaryPath path) with
  | ok fs' => exact .withdrawn hremove
  | error e' => exact .left hremove rfl

/-- A flush goes through such states to a last step. -/
theorem exists_underway_of_flush (fs : FileSystem) (source : Source)
    (staged : OrderedTable String Bytes) (path : String) :
    ∃ now, Underway fs path now
      ∧ Finishes path now (flush fs source staged path).1 (flush fs source staged path).2 := by
  rw [flush]
  dsimp only
  rcases builds_of_rebuild fs source staged (temporaryPath path) with
    ⟨e, hrebuild⟩ | ⟨id, created, built, result, hcreate, hbuilt, hrebuild⟩
  · rw [hrebuild]
    exact ⟨fs, .start, finishes_of_failure rfl⟩
  · rw [hrebuild]
    cases result with
    | error e => exact ⟨built, .building hcreate hbuilt, finishes_of_failure rfl⟩
    | ok done =>
      obtain ⟨now, hnow, hinstall⟩ := builds_of_install built (temporaryPath path) path id
      refine ⟨now, .building hcreate (hbuilt.trans hnow), ?_⟩
      dsimp only
      rcases hinstall with ⟨e, hinstall⟩ | ⟨fs', hrename, hinstall⟩
      · rw [hinstall]
        exact finishes_of_failure rfl
      · rw [hinstall]
        exact .moved hrename

end Handle

/-! ## Nothing else is touched -/

/-- Each operation on a new file beside the archive gives the file other data and does nothing
else. -/
theorem Builds.exists_grow {beside : Location} (hbeside : IsBeside fs path beside)
    {data : FileData}
    (h : Builds (Handle.temporaryPath path) fs.files.size (fs.grow beside data) now) :
    ∃ data', now = fs.grow beside data' := by
  cases h with
  | write offset bytes written =>
    rw [FileSystem.write, data_grow, if_pos rfl] at written
    split at written
    case h_1 =>
      cases written
      exact ⟨_, modifyData_grow ..⟩
    case h_2 =>
      cases written
      exact ⟨data, rfl⟩
    case h_3 =>
      split at written
      · cases written
        exact ⟨data, rfl⟩
      · contradiction
  | permit mode permitted =>
    rw [setMode_grow hbeside.ne_nil hbeside.create] at permitted
    cases permitted
    exact ⟨_, rfl⟩

section Free

variable (habsolute : Path.isAbsolute path = true) (hfree : ∀ l node slash,
  fs.resolve .entry (Handle.temporaryPath path) ≠ .ok (.found l node slash))

include habsolute hfree

theorem exists_isBeside_of_createFile {id : FileId} {created : FileSystem}
    (hcreate : fs.createFile (Handle.temporaryPath path) = .ok (id, created)) :
    ∃ beside, IsBeside fs path beside ∧ id = fs.files.size
      ∧ created = fs.grow beside ⟨#[], newFileMode, .disk⟩ := by
  obtain ⟨target, hresolve⟩ : ∃ target,
      fs.resolve .create (Handle.temporaryPath path) = .ok target := by
    cases hresolve : fs.resolve .create (Handle.temporaryPath path) with
    | ok target => exact ⟨target, rfl⟩
    | error e =>
      rw [createFile, hresolve] at hcreate
      cases hcreate
  obtain ⟨beside, rfl, hentry, hne, hvacant⟩ :=
    vacant_of_create (Handle.isAbsolute_temporaryPath habsolute) hfree hresolve
  cases (createFile_of_vacant hresolve).symm.trans hcreate
  exact ⟨beside, ⟨hresolve, hentry, hne, hvacant⟩, rfl, rfl⟩

/-- In each state that a close goes through, nothing is different but for one new file. -/
theorem Underway.eq_or_exists_grow (h : Underway fs path now) :
    now = fs ∨ ∃ beside data, IsBeside fs path beside ∧ now = fs.grow beside data := by
  cases h with
  | start => exact .inl rfl
  | building creation steps =>
    obtain ⟨beside, hbeside, rfl, rfl⟩ := exists_isBeside_of_createFile habsolute hfree creation
    refine .inr ⟨beside, ?_⟩
    -- each step keeps the new file the only difference
    induction steps with
    | refl => exact ⟨_, hbeside, rfl⟩
    | tail _ step ih =>
      obtain ⟨data, -, rfl⟩ := ih
      obtain ⟨data', rfl⟩ := step.exists_grow hbeside
      exact ⟨data', hbeside, rfl⟩

/-- In each state that a close goes through, what the archive's path names is as it was. -/
theorem Underway.sameAt (hfiles : WellFormed fs) (h : Underway fs path now) {there : Location}
    (hthere : NamesPlace fs path there) :
    SameAt fs now there := by
  rcases h.eq_or_exists_grow habsolute hfree with rfl | ⟨beside, data, hbeside, rfl⟩
  · exact .refl ..
  · have hne := hthere.ne_beside habsolute hbeside.entry
    refine ⟨(node?_grow hbeside.ne_nil data there).trans (if_neg hne), fun id hnode => ?_⟩
    rw [data_grow, if_neg (Nat.ne_of_lt (hfiles.data there id hnode))]

/-- From each state that a close goes through, removing the file leads back. -/
theorem Underway.exists_removed (h : Underway fs path now) :
    now = fs ∨ ∃ removed, now.removeFile (Handle.temporaryPath path) = .ok removed
      ∧ Restored fs removed := by
  refine (h.eq_or_exists_grow habsolute hfree).imp_right ?_
  rintro ⟨beside, data, hbeside, rfl⟩
  exact ⟨_, removeFile_of_file (resolve_entry_grow hbeside.ne_nil hbeside.entry data),
    restored_grow hbeside.ne_nil hbeside.vacant data⟩

/-- A close that failed leaves everything as it was. -/
theorem Finishes.restored (hnow : Underway fs path now) {e : Error}
    (h : Finishes path now fs' (.error e)) :
    Restored fs fs' := by
  rcases hnow.exists_removed habsolute hfree with rfl | ⟨removed, hremoved, hrestored⟩
  · cases h with
    | withdrawn removal =>
      obtain ⟨l, node, hfound, -, -⟩ := exists_of_removeFile removal
      exact absurd hfound (hfree l node false)
    | left removal same => exact same ▸ .refl _
  · cases h with
    | withdrawn removal =>
      cases hremoved.symm.trans removal
      exact hrestored
    | left removal same => cases hremoved.symm.trans removal

/-! ## Readers -/

/-- Whether the archive's path leads to the vacant place at which the archive is built anew. -/
def LeadsBeside (fs : FileSystem) (path : String) : Prop :=
  ∃ beside, fs.resolve .inspect path = .ok (.vacant beside false)
    ∧ fs.resolve .create (Handle.temporaryPath path) = .ok (.vacant beside false)

/-- While a close is under way, readers of the archive's path get what they got before, unless the
path leads to the place beside the archive; then they get the unfinished file. -/
theorem shown?_underway_iff (hfiles : WellFormed fs) :
    (∀ now, Underway fs path now → now.shown? path = fs.shown? path) ↔ ¬ LeadsBeside fs path := by
  constructor
  · rintro hreaders ⟨beside, hleads, hcreate⟩
    obtain ⟨l, hl, -, hne, -⟩ :=
      vacant_of_create (Handle.isAbsolute_temporaryPath habsolute) hfree hcreate
    cases hl
    have hcreated := hreaders _ (.building (createFile_of_vacant hcreate) .refl)
    rw [shown?_grow_of_vacant hne hleads] at hcreated
    -- before the file was created the path led to no file
    obtain ⟨l, id, slash, hresolve, -⟩ := shown?_eq_some_iff.1 hcreated.symm
    cases hleads.symm.trans hresolve
  · intro hnot now hnow
    rcases hnow.eq_or_exists_grow habsolute hfree with rfl | ⟨beside, data, hbeside, rfl⟩
    · rfl
    · exact shown?_grow hfiles habsolute hbeside.ne_nil hbeside.vacant data
        fun hleads => hnot ⟨beside, hleads, hbeside.create⟩

end Free

/-- After a new archive was placed, readers of its path get nothing else. -/
theorem Becomes.eq_of_shown? {source : Source} {staged : OrderedTable String Bytes}
    {placed : Placed} {dir : Location} {last : String} (h : Becomes fs fs' (some placed))
    (hplacing : Placing fs source staged path placed dir last)
    (habsolute : Path.isAbsolute path = true) {seen : FileData}
    (hseen : fs'.shown? path = some seen) : seen = placed.2 := by
  obtain ⟨l, id, slash, hresolve, rfl⟩ := shown?_eq_some_iff.1 hseen
  obtain ⟨isName, front, links, steps, hsegments, henters⟩ := hplacing.lies
  obtain ⟨dir', hlies⟩ := liesIn_of_resolve habsolute hsegments isName hresolve
  -- nothing new leads on, so that the path still ends in the archive's directory
  obtain rfl := (hlies.of_ended h.ended).dir_eq hplacing.lies
  obtain ⟨id', hnode, hdata⟩ := h.exists_node?
  rw [hplacing.there] at hnode
  cases hlies.eq_found habsolute hnode hresolve
  exact hdata

/-- What a close that persisted writes has done: the complete new archive stands at the archive's
place and has its permissions, and readers of its path get nothing else. They get it unless a link
stood at the place. -/
structure Installed (fs fs' : FileSystem) (source : Source) (staged : OrderedTable String Bytes)
    (path : String) (placed : Placed) : Prop where
  place : NamesPlace fs path placed.1
  stands : fs'.content? placed.1 = some (.file placed.2)
  complete : Handle.rebuilt (source.bytes fs) source.directory staged = .ok placed.2.bytes.toList
  mode : ∀ mode, fs.mode path = .ok mode → placed.2.mode = mode
  readers : ∀ seen, fs'.shown? path = some seen → seen = placed.2
  shown : (∀ goal, fs.node? placed.1 ≠ some (.link goal)) → fs'.shown? path = some placed.2

theorem exists_installed_of_flush {source : Source} {staged : OrderedTable String Bytes}
    (hfiles : WellFormed fs) (habsolute : Path.isAbsolute path = true)
    (hsource : source.file < fs.files.size)
    (hfree : ∀ l node slash,
      fs.resolve .entry (Handle.temporaryPath path) ≠ .ok (.found l node slash))
    (hflush : (Handle.flush fs source staged path).2 = .ok ()) :
    ∃ placed, Installed fs (Handle.flush fs source staged path).1 source staged path placed := by
  obtain ⟨placed, dir, last, hnames, hplacing, hbecomes⟩ :=
    exists_placing_of_flush hfiles habsolute hsource hfree hflush
  obtain ⟨id, hnode, hdata⟩ := hbecomes.exists_node?
  refine ⟨placed, hnames, exists_node?_eq_file_iff.1 ⟨id, hnode, hdata⟩, hplacing.rebuilt,
    hplacing.mode, fun seen hseen => hbecomes.eq_of_shown? hplacing habsolute hseen,
    fun hlink => ?_⟩
  rw [shown?_of_openFile (hbecomes.openFile hplacing habsolute hlink hnode), hdata]

/-! ## Closing -/

namespace Handle

/-- A close leaves the handle closed, and if it fails all else as it was, if nothing stood beside
the archive. In each state before its last step what the archive's path names is as it was, and a
failure in any of them would leave everything as it was. Until the last step readers of the path get
what they got before, if and only if the path does not lead to the place beside the archive. A close
that has something to persist goes through such states to its last step, and when it succeeds the
complete new archive is at its place. -/
theorem close_atomic {fs : FileSystem} {handle : Handle} (hfiles : WellFormed fs)
    (habsolute : Path.isAbsolute handle.path = true)
    (hsource : ∀ source, handle.source = some source → source.file < fs.files.size)
    (hfree : ∀ l node slash,
      fs.resolve .entry (temporaryPath handle.path) ≠ .ok (.found l node slash)) :
    (handle.close fs).1.source = none
      ∧ (∀ e, (handle.close fs).2.2 = .error e → Restored fs (handle.close fs).2.1)
      ∧ (∀ now, Underway fs handle.path now →
        (∀ there, NamesPlace fs handle.path there → SameAt fs now there)
          ∧ ∀ e after, Finishes handle.path now after (.error e) → Restored fs after)
      ∧ ((∀ now, Underway fs handle.path now → now.shown? handle.path = fs.shown? handle.path)
        ↔ ¬ LeadsBeside fs handle.path)
      ∧ ((handle.source = none ∨ handle.staged.isEmpty = true)
          ∧ (handle.close fs).2 = (fs, .ok ())
        ∨ ∃ source now, handle.source = some source ∧ Underway fs handle.path now
          ∧ Finishes handle.path now (handle.close fs).2.1 (handle.close fs).2.2
          ∧ ((handle.close fs).2.2 = .ok () →
            ∃ placed, Installed fs (handle.close fs).2.1 source handle.staged handle.path placed)) := by
  have hends : (handle.source = none ∨ handle.staged.isEmpty = true)
        ∧ (handle.close fs).2 = (fs, .ok ())
      ∨ ∃ source now, handle.source = some source ∧ Underway fs handle.path now
        ∧ Finishes handle.path now (handle.close fs).2.1 (handle.close fs).2.2
        ∧ ((handle.close fs).2.2 = .ok () →
          ∃ placed,
            Installed fs (handle.close fs).2.1 source handle.staged handle.path placed) := by
    cases hopen : handle.source with
    | none =>
      refine .inl ⟨.inl rfl, ?_⟩
      rw [close, hopen]
    | some source =>
      cases hstaged : handle.staged.isEmpty with
      | true => exact .inl ⟨.inr rfl, (close_of_isEmpty hstaged fs).1⟩
      | false =>
        -- something is staged, so the close is a flush, of which one step is the last
        obtain ⟨now, hunderway, hfinishes⟩ :=
          exists_underway_of_flush fs source handle.staged handle.path
        rw [close_eq hopen hstaged]
        exact .inr ⟨source, now, rfl, hunderway, hfinishes,
          exists_installed_of_flush hfiles habsolute (hsource source hopen) hfree⟩
  refine ⟨(source_close handle fs).1, fun e herror => ?_, fun now hnow => ?_,
    shown?_underway_iff habsolute hfree hfiles, hends⟩
  · rcases hends with ⟨-, hclose⟩ | ⟨source, now, -, hnow, hfinishes, -⟩
    · rw [hclose] at herror
      cases herror
    · rw [herror] at hfinishes
      exact hfinishes.restored habsolute hfree hnow
  · exact ⟨fun there => hnow.sameAt habsolute hfree hfiles,
      fun e after hfinishes => hfinishes.restored habsolute hfree hnow⟩

/-! ## An archive that disappeared, and a link in its place -/

/-- The files after the archive was removed that a handle has open. -/
def vanishedFiles : FileSystem :=
  { pairedFiles with nodes := [] }

/-- The files after a link to the place beside the archive was put in its place. -/
def danglingFiles : FileSystem :=
  { pairedFiles with nodes := [(["lib.jar"], .link "lib.jar.tmp")] }

theorem wellFormed_vanishedFiles : WellFormed vanishedFiles :=
  wellFormed_of_forall (by simp [vanishedFiles, pairedFiles]) (by simp [vanishedFiles])

theorem resolve_vanishedFiles :
    vanishedFiles.resolve .entry (temporaryPath pairedHandle.path)
        = .ok (.vacant ["lib.jar.tmp"] false)
      ∧ vanishedFiles.resolve .create (temporaryPath pairedHandle.path)
        = .ok (.vacant ["lib.jar.tmp"] false)
      ∧ (vanishedFiles.grow ["lib.jar.tmp"]
          ⟨(Zip.encode pairedItems [33]).toArray, newFileMode, .disk⟩).mode pairedHandle.path
        = .error (.os .notFound) :=
  ⟨rfl, rfl, rfl⟩

theorem resolve_danglingFiles :
    danglingFiles.resolve .entry pairedHandle.path
        = .ok (.found ["lib.jar"] (.link "lib.jar.tmp") false)
      ∧ danglingFiles.resolve .inspect pairedHandle.path = .ok (.vacant ["lib.jar.tmp"] false)
      ∧ danglingFiles.resolve .entry (temporaryPath pairedHandle.path)
        = .ok (.vacant ["lib.jar.tmp"] false)
      ∧ danglingFiles.resolve .create (temporaryPath pairedHandle.path)
        = .ok (.vacant ["lib.jar.tmp"] false)
      ∧ danglingFiles.mode pairedHandle.path = .error (.os .notFound)
      ∧ danglingFiles.shown? pairedHandle.path = none :=
  ⟨rfl, rfl, rfl, rfl, rfl, rfl⟩

theorem close_vanishedFiles :
    (pairedHandle.close vanishedFiles).2.2 = .error (.io "/lib.jar" (.os .notFound)) := by
  obtain ⟨hbeside, hcreate, hmode⟩ := resolve_vanishedFiles
  have hrebuilt : rebuilt (pairedSource.bytes vanishedFiles) pairedSource.directory
      pairedHandle.staged = .ok (Zip.encode pairedItems [33]) :=
    rebuilt_eq_ok_iff.2 ⟨_, rebuiltItems_pairedHandle, rfl⟩
  rw [close_eq rfl rfl]
  dsimp only
  rw [(becomes_flush wellFormed_vanishedFiles rfl (by decide)
    fun l node slash hfound => by cases hbeside.symm.trans hfound).1, outcome,
    look_eq_vacant_iff.2 hcreate]
  dsimp only
  rw [hrebuilt]
  dsimp only
  rw [← mode_eq_look, hmode]
  rfl

/-- The close of an archive that disappeared fails and leaves everything as it was; where the
archive is still there, readers get the complete new one. -/
theorem restored_vanishedFiles :
    (pairedHandle.close vanishedFiles).2.2 = .error (.io "/lib.jar" (.os .notFound))
      ∧ Restored vanishedFiles (pairedHandle.close vanishedFiles).2.1
      ∧ (pairedHandle.close pairedFiles).2.2 = .ok ()
      ∧ ∃ data, (pairedHandle.close pairedFiles).2.1.shown? "/lib.jar" = some data
        ∧ data.bytes.toList = Zip.encode pairedItems [33] := by
  have habsolute : Path.isAbsolute pairedHandle.path = true := rfl
  have hvanished := close_atomic wellFormed_vanishedFiles habsolute
    (fun source hsource => by cases hsource; decide)
    fun l node slash hfound => by cases resolve_vanishedFiles.1.symm.trans hfound
  obtain ⟨-, hbeside, -, -⟩ := resolve_pairedFiles
  have hpaired := close_atomic wellFormed_pairedFiles habsolute
    (fun source hsource => by cases hsource; decide)
    fun l node slash hfound => by cases hbeside.symm.trans hfound
  refine ⟨close_vanishedFiles, hvanished.2.1 _ close_vanishedFiles, close_pairedHandle, ?_⟩
  rcases hpaired.2.2.2.2 with ⟨hnothing, -⟩ | ⟨source, now, hsource, -, -, hinstalled⟩
  · exact absurd hnothing (by decide)
  · cases hsource
    obtain ⟨placed, hplaced⟩ := hinstalled close_pairedHandle
    have hrebuilt := rebuilt_eq_ok_iff.2 ⟨_, rebuiltItems_pairedHandle, rfl⟩
    exact ⟨placed.2, hplaced.shown (ne_link_of_namesPlace_pairedHandle hplaced.place),
      (Except.ok.inj (hrebuilt.symm.trans hplaced.complete)).symm⟩

/-- If a link to the place beside the archive has come to the archive's place, the path shows a file
that is not finished while the close is under way, which is neither what it showed before, nothing,
nor the complete archive; and the permissions are copied that were not to be had before. -/
theorem unfinished_danglingFiles :
    danglingFiles.shown? pairedHandle.path = none
      ∧ (∃ now, Underway danglingFiles pairedHandle.path now
        ∧ now.shown? pairedHandle.path = some ⟨#[], newFileMode, .disk⟩)
      ∧ rebuilt (pairedSource.bytes danglingFiles) pairedSource.directory pairedHandle.staged
        ≠ .ok []
      ∧ danglingFiles.mode pairedHandle.path = .error (.os .notFound)
      ∧ (pairedHandle.close danglingFiles).2.2 = .ok ()
      ∧ ∀ l node slash, danglingFiles.resolve .entry (temporaryPath pairedHandle.path)
        ≠ .ok (.found l node slash) := by
  obtain ⟨hplace, hleads, hbeside, hcreate, hmode, hshown⟩ := resolve_danglingFiles
  have hrebuilt : rebuilt (pairedSource.bytes danglingFiles) pairedSource.directory
      pairedHandle.staged = .ok (Zip.encode pairedItems [33]) :=
    rebuilt_eq_ok_iff.2 ⟨_, rebuiltItems_pairedHandle, rfl⟩
  have hcan := canReplace_of_mode rfl hcreate hbeside hplace nofun fun bytes =>
    mode_grow_of_vacant (by decide) hleads ⟨bytes, newFileMode, .disk⟩
  refine ⟨hshown, ⟨_, .building (createFile_of_vacant hcreate) .refl,
    shown?_grow_of_vacant (by decide) hleads _⟩, ?_, hmode, ?_,
    fun l node slash hfound => by cases hbeside.symm.trans hfound⟩
  · rw [hrebuilt]
    exact fun heq => absurd (Except.ok.inj heq) (by decide)
  · rw [close_eq rfl rfl]
    dsimp only
    rw [hcan.flush_eq_ok_iff, bytes_grow (by decide)]
    exact ⟨_, hrebuilt⟩

end Handle

end Reline.Archive
