/-
  Reline.Proofs.Archive.Congruence

  What opening an archive and putting staged writes into its file depend on.

  Both go by what stands on the ways of two paths, the archive's and the one
  beside it, and by the data of the files there. Where others left these places
  alone, the archive is opened as before; and the same writes, put into its file
  in two file systems that are alike at these places, fail in both for the same
  reason or leave the same there, whatever stood beside the archive.
-/

import Reline.Archive.Store
import Reline.Proofs.Archive.Flush
import Reline.Proofs.Archive.Handle
import Reline.Proofs.Archive.Rewriting
import Reline.Proofs.FileSystem.Relinking

namespace Reline.Archive

open FileSystem

variable {fs fs' : FileSystem} {places : List Location} {path key : String} {source : Source}
  {staged : OrderedTable String Bytes} {pair : FileId → FileId → Prop}

/-! ## Places that others leave alone -/

/-- A file system that came of another, with the same at some places. -/
structure Unchanged (places : List Location) (fs fs' : FileSystem) : Prop where
  wellFormed : WellFormed fs'
  current : fs'.current = fs.current
  same : ∀ l ∈ places, SameAt fs fs' l

theorem Unchanged.refl (h : WellFormed fs) (places : List Location) : Unchanged places fs fs :=
  ⟨h, rfl, fun l _ => .refl fs l⟩

theorem Unchanged.trans {fs'' : FileSystem} (h : Unchanged places fs fs')
    (h' : Unchanged places fs' fs'') : Unchanged places fs fs'' where
  wellFormed := h'.wellFormed
  current := h'.current.trans h.current
  same l hl := (h.same l hl).trans (h'.same l hl)

/-- A path over these places leads to the very same as before. -/
theorem Unchanged.resolve_eq (h : Unchanged places fs fs') (hfiles : WellFormed fs)
    (hpath : fs.StaysIn places path) (purpose : Purpose) :
    fs'.resolve purpose path = fs.resolve purpose path := by
  have halike := alike_of_sameAt hfiles h.wellFormed rfl h.current (fun l _ => .refl fs l) h.same
  have hleading := halike.leading hpath purpose
  generalize fs.resolve purpose path = target at hleading ⊢
  generalize fs'.resolve purpose path = target' at hleading ⊢
  cases hleading with
  | error e => rfl
  | vacant slash mem => rfl
  | found slash mem twin =>
    cases twin with
    | directory mode => rfl
    | link goal => rfl
    | file paired => rw [paired.1]

theorem Unchanged.staysIn (h : Unchanged places fs fs') (hpath : fs.StaysIn places path) :
    fs'.StaysIn places path := by
  have hway := way_congr (fun l hl => (h.same l (hpath l hl)).content?_eq) h.current
  intro l hl
  rw [hway] at hl
  exact hpath l hl

theorem Unchanged.inspect_eq (h : Unchanged places fs fs') (hfiles : WellFormed fs)
    (hpath : fs.StaysIn places path) : fs'.inspect path = fs.inspect path := by
  rw [inspect_eq_resolve, inspect_eq_resolve, h.resolve_eq hfiles hpath]

/-- The archive is registered under the same path. -/
theorem Unchanged.key_eq (h : Unchanged places fs fs') (hfiles : WellFormed fs)
    (hpath : fs.StaysIn places path) : Store.key fs' path = Store.key fs path := by
  rw [Store.key, Store.key, canonical, canonical, h.inspect_eq hfiles hpath, h.current]

/-- The archive is opened as it was. -/
theorem Unchanged.openAt_eq (h : Unchanged places fs fs') (hfiles : WellFormed fs)
    (hpath : fs.StaysIn places path) : Handle.openAt fs' path = Handle.openAt fs path := by
  have hinspect := h.inspect_eq hfiles hpath
  have hopen : fs'.openFile path = fs.openFile path := by rw [openFile, openFile, hinspect]
  rw [Handle.openAt, Handle.openAt, hopen]
  cases hfile : fs.openFile path with
  | error e =>
    cases e with
    | os cause => cases cause <;> rfl
    | _ => rfl
  | ok file =>
    cases file with
    | none => rfl
    | some id =>
      obtain ⟨l, hfound⟩ := openFile_eq_ok_some_iff.1 hfile
      obtain ⟨slash, hresolve⟩ := inspect_eq_ok_iff.1 hfound
      obtain ⟨hway, hnode⟩ := mem_way_of_found hresolve
      dsimp only
      rw [(h.same l (hpath l hway)).data id hnode]

/-- The places that decide what opening the archive of a path gives, and what putting writes into
its file comes to. -/
def archivePlaces (fs : FileSystem) (path : String) : List Location :=
  fs.way path ++
    match Store.key fs path with
    | .ok key => fs.way key ++ fs.way (Handle.temporaryPath key)
    | .error _ => []

theorem staysIn_archivePlaces (fs : FileSystem) (path : String) :
    fs.StaysIn (archivePlaces fs path) path :=
  fun _ hl => List.mem_append_left _ hl

theorem staysIn_archivePlaces_key (hkey : Store.key fs path = .ok key) :
    fs.StaysIn (archivePlaces fs path) key
      ∧ fs.StaysIn (archivePlaces fs path) (Handle.temporaryPath key) := by
  rw [archivePlaces, hkey]
  exact ⟨fun l hl => List.mem_append_right _ (List.mem_append_left _ hl),
    fun l hl => List.mem_append_right _ (List.mem_append_right _ hl)⟩

/-- The file of an archive that is opened stands on the way of its path. -/
theorem exists_mem_way_of_openAt {handle : Handle} (hopen : Handle.openAt fs key = .ok handle)
    (hsource : handle.source = some source) :
    ∃ l ∈ fs.way key, fs.node? l = some (.file source.file) := by
  obtain ⟨file, directory, hfile, -, -, rfl⟩ := Handle.openAt_eq_ok_iff.1 hopen
  cases hsource
  obtain ⟨l, hfound⟩ := openFile_eq_ok_some_iff.1 hfile
  obtain ⟨slash, hresolve⟩ := inspect_eq_ok_iff.1 hfound
  exact ⟨l, mem_way_of_found hresolve⟩

/-- The archive's file stands at one of these places. -/
theorem exists_mem_archivePlaces (hkey : Store.key fs path = .ok key) {handle : Handle}
    (hopen : Handle.openAt fs key = .ok handle) (hsource : handle.source = some source) :
    ∃ l ∈ archivePlaces fs path, fs.node? l = some (.file source.file) := by
  obtain ⟨l, hway, hnode⟩ := exists_mem_way_of_openAt hopen hsource
  exact ⟨l, (staysIn_archivePlaces_key hkey).1 l hway, hnode⟩

/-! ## Putting writes into the file -/

/-- What the same work makes of two file systems that are alike: the same answer, and file systems
that are alike again. -/
structure Matching (places : List Location)
    (result result' : FileSystem × Except Error Unit) : Prop where
  answer : result'.2 = result.2
  alike : ∃ pair, Alike pair places result.1 result'.1

theorem Matching.of_alike (h : Alike pair places fs fs') (answer : Except Error Unit) :
    Matching places (fs, answer) (fs', answer) :=
  ⟨rfl, pair, h⟩

namespace Handle

theorem bytes_alike (h : Alike pair places fs fs') (hsource : pair source.file source.file) :
    source.bytes fs' = source.bytes fs := by
  rw [Source.bytes, Source.bytes, h.data _ _ hsource]

theorem matching_rebuild (h : Alike pair places fs fs') (hsource : pair source.file source.file)
    (staged : OrderedTable String Bytes) {temporary : String}
    (htemporary : fs.StaysIn places temporary) :
    Matching places (rebuild fs source staged temporary) (rebuild fs' source staged temporary) := by
  have hcreating := h.createFile htemporary
  rw [rebuild, rebuild]
  generalize fs.createFile temporary = created at hcreating ⊢
  generalize fs'.createFile temporary = created' at hcreating ⊢
  cases hcreating with
  | error e => exact .of_alike h _
  | @ok i j created created' pair' paired grows alike =>
    -- the archive's own file may be the one that was emptied
    dsimp only
    rw [alike.data i j paired, bytes_alike alike (grows _ _ hsource)]
    cases rebuilt (source.bytes created)
        (rebuiltPart source.directory (created.data i).medium) staged with
    | error e => exact .of_alike alike _
    | ok bytes =>
      have hwriting := alike.write paired 0 bytes
      dsimp only
      generalize created.write i 0 bytes = written at hwriting ⊢
      generalize created'.write j 0 bytes = written' at hwriting ⊢
      cases hwriting with
      | error e => exact .of_alike alike _
      | ok alike' =>
        dsimp only
        rw [alike'.sync_eq paired]
        exact .of_alike alike' _

theorem ended_rebuild (fs : FileSystem) (source : Source) (staged : OrderedTable String Bytes)
    (temporary : String) : Ended fs (rebuild fs source staged temporary).1
      ∧ (rebuild fs source staged temporary).1.current = fs.current := by
  rcases rebuild_cases fs source staged temporary with
    ⟨e, hrebuild⟩ | ⟨id, created, built, result, hcreate, hfilling, hrebuild⟩
  · rw [hrebuild]
    exact ⟨.refl fs, rfl⟩
  · rw [hrebuild]
    obtain ⟨hended, hcurrent⟩ := ended_of_createFile hcreate
    exact ⟨hended.trans hfilling.ended, hfilling.current.trans hcurrent⟩

theorem matching_install (h : Alike pair places fs fs') {temporary : String}
    (htemporary : fs.StaysIn places temporary) (hpath : fs.StaysIn places path) :
    Matching places (install fs temporary path) (install fs' temporary path) := by
  rw [install, install, h.mode_eq hpath]
  cases fs.mode path with
  | error e => exact .of_alike h _
  | ok mode =>
    have hsetting := h.setMode htemporary mode
    have hended {permitted : FileSystem} (hset : fs.setMode temporary mode = .ok permitted) :=
      ended_of_setMode hset
    dsimp only
    generalize fs.setMode temporary mode = permitted at hsetting hended ⊢
    generalize fs'.setMode temporary mode = permitted' at hsetting ⊢
    cases hsetting with
    | error e => exact .of_alike h _
    | @ok permitted permitted' alike =>
      obtain ⟨hleads, hcurrent⟩ := hended rfl
      have hrenaming := alike.renameFile (hleads.staysIn hcurrent htemporary)
        (hleads.staysIn hcurrent hpath)
      dsimp only
      generalize permitted.renameFile temporary path = moved at hrenaming ⊢
      generalize permitted'.renameFile temporary path = moved' at hrenaming ⊢
      cases hrenaming with
      | error e => exact .of_alike alike _
      | ok alike' => exact .of_alike alike' _

/-- Unless the file is moved, no path leads on to places where it did not before. -/
theorem ended_install {temporary : String} {e : Error}
    (h : (install fs temporary path).2 = .error e) :
    Ended fs (install fs temporary path).1
      ∧ (install fs temporary path).1.current = fs.current := by
  rw [install] at h ⊢
  cases hmode : fs.mode path with
  | error e => exact ⟨.refl fs, rfl⟩
  | ok mode =>
    rw [hmode] at h
    dsimp only at h ⊢
    cases hset : fs.setMode temporary mode with
    | error e => exact ⟨.refl fs, rfl⟩
    | ok permitted =>
      rw [hset] at h
      dsimp only at h ⊢
      cases hrename : permitted.renameFile temporary path with
      | error e => exact ended_of_setMode hset
      | ok moved =>
        rw [hrename] at h
        cases h

/-- A file that could not be put in the archive's place is removed in both file systems, or in
neither. -/
theorem matching_withdrawn (h : Alike pair places fs fs') {temporary : String}
    (htemporary : fs.StaysIn places temporary) (e : Error) :
    Matching places
      (match fs.removeFile temporary with
        | .ok fs => (fs, .error e)
        | .error _ => (fs, .error e))
      (match fs'.removeFile temporary with
        | .ok fs => (fs, .error e)
        | .error _ => (fs', .error e)) := by
  have hremoving := h.removeFile htemporary
  generalize fs.removeFile temporary = removed at hremoving ⊢
  generalize fs'.removeFile temporary = removed' at hremoving ⊢
  cases hremoving with
  | error e' => exact .of_alike h _
  | ok alike => exact .of_alike alike _

/-- The same writes, put into the file of an archive in file systems that are alike on the ways of
its path and of the path beside it. -/
theorem matching_flush (h : Alike pair places fs fs') (hsource : pair source.file source.file)
    (staged : OrderedTable String Bytes) (hpath : fs.StaysIn places path)
    (hbeside : fs.StaysIn places (temporaryPath path)) :
    Matching places (flush fs source staged path) (flush fs' source staged path) := by
  obtain ⟨hanswer, pair', halike⟩ := matching_rebuild h hsource staged hbeside
  obtain ⟨hended, hcurrent⟩ := ended_rebuild fs source staged (temporaryPath path)
  rw [flush, flush]
  generalize rebuild fs source staged (temporaryPath path) = built
    at hanswer halike hended hcurrent ⊢
  generalize rebuild fs' source staged (temporaryPath path) = built' at hanswer halike ⊢
  obtain ⟨built, answer⟩ := built
  obtain ⟨built', answer'⟩ := built'
  cases hanswer
  have hbeside' := hended.staysIn hcurrent hbeside
  cases answer with
  | error e => exact matching_withdrawn halike hbeside' e
  | ok done =>
    dsimp only at halike hended hcurrent hbeside' ⊢
    obtain ⟨hanswer, pair'', halike'⟩ :=
      matching_install halike hbeside' (hended.staysIn hcurrent hpath)
    have hinstall {e : Error} := @ended_install built path (temporaryPath path) e
    generalize install built (temporaryPath path) path = installed at hanswer halike' hinstall ⊢
    generalize install built' (temporaryPath path) path = installed' at hanswer halike' ⊢
    obtain ⟨installed, answer⟩ := installed
    obtain ⟨installed', answer'⟩ := installed'
    cases hanswer
    cases answer with
    | ok done => exact .of_alike halike' _
    | error e =>
      obtain ⟨hended', hcurrent'⟩ := hinstall rfl
      exact matching_withdrawn halike' (hended'.staysIn hcurrent' hbeside') e

/-! ## What is left alone -/

/-- A file that does not stand on the way of the path beside the archive keeps its data. -/
theorem data_of_flushes {result : Except Error Unit} (h : Flushes fs path fs' result) {j : FileId}
    (hj : j < fs.files.size)
    (hother : ∀ l ∈ fs.way (temporaryPath path), fs.node? l ≠ some (.file j)) :
    fs'.data j = fs.data j := by
  have hbuilt {location : Location} {id : FileId} {created built : FileSystem}
      (hcreates : Creates fs created (temporaryPath path) location id)
      (hfilling : Refilled created built id) : built.data j = fs.data j := by
    have hne : j ≠ id := by
      rintro rfl
      rcases hcreates.leads with ⟨⟨slash, hfound⟩, hnode⟩ | ⟨-, -, -, hnew⟩
      · exact hother location (mem_way_of_found hfound).1 hnode
      · exact Nat.lt_irrefl _ (hnew ▸ hj)
    exact (hfilling.others j hne).trans (hcreates.others j hne hj)
  cases h with
  | refused => rfl
  | cleared removal =>
    obtain ⟨there, node, -, -, rfl⟩ := exists_of_removeFile removal
    rfl
  | moved creation filling move =>
    obtain ⟨l, node, there, -, -, rfl⟩ := exists_of_renameFile move
    have hkept := hbuilt creation filling
    exact hkept
  | withdrawn creation filling removal =>
    obtain ⟨there, node, -, -, rfl⟩ := exists_of_removeFile removal
    have hkept := hbuilt creation filling
    exact hkept
  | left creation filling removal => exact hbuilt creation filling

/-- When a link that stood beside the archive is moved to the archive's place, it leads on from
there to no other places than before. -/
theorem staysIn_of_moved_link {location there l : Location} {id : FileId} {goal : String}
    {created built : FileSystem} (habsolute : Path.isAbsolute path = true)
    (hcreates : Creates fs created (temporaryPath path) location id)
    (hfilled : Filled fs built location id)
    (hstood : fs.resolve .entry (temporaryPath path) = .ok (.found l (.link goal) false))
    (hthere : (∃ old, built.resolve .entry path = .ok (.found there old false))
      ∨ built.resolve .entry path = .ok (.vacant there false))
    (hdirectory : ∀ {location : Location} {node : Node} {slash : Bool},
      built.resolve .entry path = .ok (.found location node slash) → ∀ mode, node ≠ .directory mode)
    (hrelinked : Relinked fs fs' there goal) (hcurrent : fs'.current = fs.current)
    (hbeside : fs.StaysIn places (temporaryPath path)) {other : String}
    (hother : fs.StaysIn places other) : fs'.StaysIn places other := by
  -- the archive's path named this place before the new file was created, too
  obtain ⟨target, hresolve, htarget⟩ : ∃ target, fs.resolve .entry path = .ok target
      ∧ ((∃ node, target = .found there node false ∧ ∀ mode, node ≠ .directory mode)
        ∨ target = .vacant there false) := by
    rcases hthere with ⟨old, hfound⟩ | hvacant
    · rcases hfilled.resolve_before habsolute hfound with hbefore | ⟨slash, heq, hbefore⟩
      · exact ⟨_, hbefore, .inl ⟨old, rfl, hdirectory hfound⟩⟩
      · cases heq
        exact ⟨_, hbefore, .inr rfl⟩
    · rcases hfilled.resolve_before habsolute hvacant with hbefore | ⟨slash, heq, -⟩
      · exact ⟨_, hbefore, .inr rfl⟩
      · cases heq
  have hplace : target = .vacant there false ∨ ∃ node, target = .found there node false := by
    rcases htarget with ⟨node, heq, -⟩ | heq
    · exact .inr ⟨node, heq⟩
    · exact .inl heq
  obtain ⟨target', hcreate, hfile⟩ : ∃ target',
      fs.resolve .create (temporaryPath path) = .ok target'
      ∧ ∀ l mode slash, target' ≠ .found l (.directory mode) slash := by
    rcases hcreates.leads with ⟨⟨slash, hfound⟩, -⟩ | ⟨⟨slash, hvacant⟩, -⟩
    · exact ⟨_, hfound, nofun⟩
    · exact ⟨_, hvacant, nofun⟩
  obtain ⟨front, last, hsegments, isName⟩ := exists_concat_of_resolve habsolute hresolve htarget
  have hsegments' : Path.segments (temporaryPath path) = front ++ [temporaryPath last] :=
    Path.segments_append hsegments (by decide)
  exact hrelinked.staysIn hcurrent habsolute (isAbsolute_temporaryPath habsolute) hsegments
    hsegments' isName (isName_temporaryPath isName) hresolve hplace hstood hcreate hfile hbeside
    hother

/-- A path stays at places where it stayed before, if the one beside the archive did. -/
theorem staysIn_of_flushes {result : Except Error Unit} (habsolute : Path.isAbsolute path = true)
    (hbeside : fs.StaysIn places (temporaryPath path)) (h : Flushes fs path fs' result)
    {other : String} (hother : fs.StaysIn places other) : fs'.StaysIn places other := by
  -- a file that was created leads nowhere, so there are no new ways yet
  have hbuilt {location : Location} {id : FileId} {created built : FileSystem}
      (hcreates : Creates fs created (temporaryPath path) location id)
      (hfilling : Refilled created built id) :
      Ended fs built ∧ built.current = fs.current := by
    have hfilled := hcreates.filled.of_refilled hfilling
    refine ⟨ended_of_nodes fun l => ?_, hfilled.current⟩
    rw [hfilled.after]
    split
    · exact .inr (.inr ⟨id, rfl⟩)
    · exact .inl rfl
  cases h with
  | refused => exact hother
  | cleared removal =>
    obtain ⟨there, node, -, -, rfl⟩ := exists_of_removeFile removal
    exact (ended_dropNode fs there).staysIn rfl hother
  | @moved location id created built _ creation filling move =>
    obtain ⟨hended, hcurrent⟩ := hbuilt creation filling
    obtain ⟨l, node, there, hsource, hthere, rfl⟩ := exists_of_renameFile move
    have hfilled := creation.filled.of_refilled filling
    have hdropped := hended.trans (ended_dropNode built l)
    rcases beside_before hfilled habsolute hsource with hstood | ⟨rfl, -⟩
    · cases node with
      | directory mode => exact absurd rfl (creation.ne_directory hstood mode)
      | file j =>
        exact (hdropped.trans (ended_putNode_file _ there j)).staysIn hcurrent hother
      | link goal =>
        exact staysIn_of_moved_link habsolute creation hfilled hstood hthere
          (ne_directory_of_renameFile move) (hdropped.relinked there goal) hcurrent hbeside hother
    · -- what is moved is the new file
      have hnode := (mem_way_of_found hsource).2
      rw [hfilled.node?_location] at hnode
      obtain rfl := Option.some.inj hnode
      exact (hdropped.trans (ended_putNode_file _ there id)).staysIn hcurrent hother
  | withdrawn creation filling removal =>
    obtain ⟨hended, hcurrent⟩ := hbuilt creation filling
    obtain ⟨there, node, -, -, rfl⟩ := exists_of_removeFile removal
    exact (hended.trans (ended_dropNode _ there)).staysIn hcurrent hother
  | left creation filling removal =>
    obtain ⟨hended, hcurrent⟩ := hbuilt creation filling
    exact hended.staysIn hcurrent hother

end Handle

end Reline.Archive
