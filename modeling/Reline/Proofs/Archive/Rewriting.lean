/-
  Reline.Proofs.Archive.Rewriting

  What putting staged writes into an archive's file may change, whether or not
  it succeeds.

  The archive is built anew in a file beside it. If nothing stands at that place,
  no place but the archive's own is different afterwards: the new file has been
  moved to the archive's place, or removed again. What stood there is lost: a
  file is written over under all its names, a link is followed to the file that
  is written, and is then moved or removed itself.
-/

import Reline.Archive.Handle
import Reline.Proofs.FileSystem.Frame

namespace Reline.Archive

open FileSystem

variable {fs fs' : FileSystem} {path : String} {l : Location}

namespace Handle

variable {source : Source} {staged : OrderedTable String Bytes}

/-! ## Steps -/

/-- Building an archive anew creates the file beside it, if that is possible, and writes to it at
most once. -/
theorem rebuild_writes (fs : FileSystem) (source : Source) (staged : OrderedTable String Bytes)
    (temporary : String) :
    (∃ e, rebuild fs source staged temporary = (fs, .error e))
      ∨ ∃ id created built result, fs.createFile temporary = .ok (id, created)
        ∧ (built = created ∨ ∃ bytes, created.write id 0 bytes = .ok built)
        ∧ rebuild fs source staged temporary = (built, result) := by
  rw [rebuild]
  cases hcreate : fs.createFile temporary with
  | error e => exact .inl ⟨_, rfl⟩
  | ok pair =>
    obtain ⟨id, created⟩ := pair
    refine .inr ⟨id, created, ?_⟩
    dsimp only
    split
    case h_1 => exact ⟨_, _, rfl, .inl rfl, rfl⟩
    case h_2 =>
      split
      case h_1 => exact ⟨_, _, rfl, .inl rfl, rfl⟩
      case h_2 written hwrite => exact ⟨_, _, rfl, .inr ⟨_, hwrite⟩, rfl⟩

/-- Installing a file sets permissions at most, before it is moved. -/
theorem install_permits (fs : FileSystem) (temporary path : String) :
    ∃ permitted, (permitted = fs ∨ ∃ mode, fs.setMode temporary mode = .ok permitted)
      ∧ ((∃ e, install fs temporary path = (permitted, .error e))
        ∨ ∃ fs', permitted.renameFile temporary path = .ok fs'
          ∧ install fs temporary path = (fs', .ok ())) := by
  rw [install]
  cases fs.mode path with
  | error e => exact ⟨fs, .inl rfl, .inl ⟨_, rfl⟩⟩
  | ok mode =>
    dsimp only
    cases hset : fs.setMode temporary mode with
    | error e => exact ⟨fs, .inl rfl, .inl ⟨_, rfl⟩⟩
    | ok permitted =>
      refine ⟨permitted, .inr ⟨mode, hset⟩, ?_⟩
      dsimp only
      cases permitted.renameFile temporary path with
      | error e => exact .inl ⟨_, rfl⟩
      | ok fs' => exact .inr ⟨fs', rfl, rfl⟩

/-- What building an archive anew does to the file system: the file beside it could not be created,
or its data alone changed after that. -/
theorem rebuild_cases (fs : FileSystem) (source : Source) (staged : OrderedTable String Bytes)
    (temporary : String) :
    (∃ e, rebuild fs source staged temporary = (fs, .error e))
      ∨ ∃ id created built result, fs.createFile temporary = .ok (id, created)
        ∧ Refilled created built id ∧ rebuild fs source staged temporary = (built, result) := by
  refine (rebuild_writes fs source staged temporary).imp_right ?_
  rintro ⟨id, created, built, result, hcreate, rfl | ⟨bytes, hwrite⟩, hrebuild⟩
  · exact ⟨id, built, built, result, hcreate, .refl .., hrebuild⟩
  · exact ⟨id, created, built, result, hcreate, refilled_write hwrite, hrebuild⟩

/-- What installing a file does to the file system: it was moved, or at most its permissions
changed. -/
theorem install_cases (path : String) {temporary : String} {location : Location} {id : FileId}
    (hfile : fs.inspect temporary = .ok (location, .file id)) :
    ∃ permitted, Refilled fs permitted id
      ∧ ((∃ e, install fs temporary path = (permitted, .error e))
        ∨ ∃ fs', permitted.renameFile temporary path = .ok fs'
          ∧ install fs temporary path = (fs', .ok ())) := by
  obtain ⟨permitted, hset, hinstall⟩ := install_permits fs temporary path
  refine ⟨permitted, ?_, hinstall⟩
  rcases hset with rfl | ⟨mode, hset⟩
  · exact .refl ..
  · -- the path leads to the file, so it is the file whose permissions are set
    rcases exists_of_setMode hset with ⟨l, id', hinspect, rfl⟩ | ⟨l, old, hinspect, -⟩
    · cases hfile.symm.trans hinspect
      exact refilled_modifyData ..
    · cases hfile.symm.trans hinspect

/-- The ways in which a flush ends. -/
inductive Flushes (fs : FileSystem) (path : String) : FileSystem → Except Error Unit → Prop where
  /-- The file beside the archive could not be created, and nothing was removed there. -/
  | refused {e : Error} : Flushes fs path fs (.error e)
  /-- It could not be created, and what stood there was removed. -/
  | cleared {e : Error} {fs' : FileSystem}
    (removal : fs.removeFile (temporaryPath path) = .ok fs') : Flushes fs path fs' (.error e)
  /-- It was created and moved over the archive. -/
  | moved {location : Location} {id : FileId} {created built fs' : FileSystem}
    (creation : Creates fs created (temporaryPath path) location id)
    (filling : Refilled created built id)
    (move : built.renameFile (temporaryPath path) path = .ok fs') : Flushes fs path fs' (.ok ())
  /-- It was created, and was removed after a failure. -/
  | withdrawn {e : Error} {location : Location} {id : FileId} {created built fs' : FileSystem}
    (creation : Creates fs created (temporaryPath path) location id)
    (filling : Refilled created built id)
    (removal : built.removeFile (temporaryPath path) = .ok fs') : Flushes fs path fs' (.error e)
  /-- It was created, and could not be removed after a failure. -/
  | left {e : Error} {e' : IoError} {location : Location} {id : FileId}
    {created built : FileSystem} (creation : Creates fs created (temporaryPath path) location id)
    (filling : Refilled created built id)
    (removal : built.removeFile (temporaryPath path) = .error e') :
    Flushes fs path built (.error e)

theorem isAbsolute_temporaryPath (h : Path.isAbsolute path = true) :
    Path.isAbsolute (temporaryPath path) = true :=
  Path.isAbsolute_append h ".tmp"

theorem flushes_flush (source : Source) (staged : OrderedTable String Bytes)
    (hfiles : WellFormed fs) (habsolute : Path.isAbsolute path = true) :
    Flushes fs path (flush fs source staged path).1 (flush fs source staged path).2 := by
  have htemporary := isAbsolute_temporaryPath habsolute
  rw [flush]
  dsimp only
  rcases rebuild_cases fs source staged (temporaryPath path) with
    ⟨e, hrebuild⟩ | ⟨id, created, built, result, hcreate, hfilling, hrebuild⟩
  · rw [hrebuild]
    dsimp only
    cases hremove : fs.removeFile (temporaryPath path) with
    | error e' => exact .refused
    | ok fs' => exact .cleared hremove
  · rw [hrebuild]
    obtain ⟨location, hcreates⟩ := exists_creates_of_createFile hfiles htemporary hcreate
    cases result with
    | error e =>
      dsimp only
      cases hremove : built.removeFile (temporaryPath path) with
      | error e' => exact .left hcreates hfilling hremove
      | ok fs' => exact .withdrawn hcreates hfilling hremove
    | ok done =>
      -- the path beside the archive leads to the file that was just built
      have hfilled := hcreates.filled.of_refilled hfilling
      obtain ⟨permitted, hpermitted, ⟨e, hinstall⟩ | ⟨fs', hrename, hinstall⟩⟩ :=
        install_cases path (hcreates.inspect hfilled)
      · dsimp only
        rw [hinstall]
        dsimp only
        cases hremove : permitted.removeFile (temporaryPath path) with
        | error e' => exact .left hcreates (hfilling.trans hpermitted) hremove
        | ok fs' => exact .withdrawn hcreates (hfilling.trans hpermitted) hremove
      · dsimp only
        rw [hinstall]
        exact .moved hcreates (hfilling.trans hpermitted) hrename

end Handle

/-! ## What a rewrite reaches -/

/-- Whether a path names a place, with something at it or not. -/
def NamesPlace (fs : FileSystem) (path : String) (l : Location) : Prop :=
  (∃ node slash, fs.resolve .entry path = .ok (.found l node slash))
    ∨ ∃ slash, fs.resolve .entry path = .ok (.vacant l slash)

/-- Whether the place beside an archive is that of a file or a link. -/
def StandsBeside (fs : FileSystem) (path : String) (l : Location) : Prop :=
  ∃ node slash, fs.resolve .entry (Handle.temporaryPath path) = .ok (.found l node slash)
    ∧ ∀ mode, node ≠ .directory mode

/-- The places that building the archive at a path anew may change. -/
inductive Touches (fs : FileSystem) (path : String) (l : Location) : Prop where
  /-- The place of the archive. -/
  | archive (here : NamesPlace fs path l)
  /-- The place beside it, if a file or a link stands there. -/
  | beside (here : StandsBeside fs path l)
  /-- A vacant place to which a link leads that stands there. -/
  | behind {there : Location} {slash : Bool} (stood : StandsBeside fs path there)
    (leads : fs.resolve .create (Handle.temporaryPath path) = .ok (.vacant l slash))
  /-- Each place of a file that stands there, or to which a link leads that stands there. -/
  | named {there : Location} {id : FileId} {slash : Bool}
    (leads : fs.resolve .create (Handle.temporaryPath path) = .ok (.found there (.file id) slash))
    (here : fs.node? l = some (.file id))

namespace Handle

variable {location : Location} {id : FileId} {created built : FileSystem}

/-- A place that a path from the root names after the new file was built was named by it before. -/
theorem namesPlace_before (hfilled : Filled fs built location id)
    (habsolute : Path.isAbsolute path = true) (h : NamesPlace built path l) :
    NamesPlace fs path l := by
  rcases h with ⟨node, slash, hfound⟩ | ⟨slash, hvacant⟩
  · rcases hfilled.resolve_before habsolute hfound with hbefore | ⟨slash', heq, hbefore⟩
    · exact .inl ⟨node, slash, hbefore⟩
    · cases heq
      exact .inr ⟨_, hbefore⟩
  · rcases hfilled.resolve_before habsolute hvacant with hbefore | ⟨slash', heq, -⟩
    · exact .inr ⟨slash, hbefore⟩
    · contradiction

/-- What stands beside an archive once the new file was built stood there before, or is the new file
at a place that was vacant. -/
theorem beside_before (hfilled : Filled fs built location id)
    (habsolute : Path.isAbsolute path = true) {node : Node} {slash : Bool}
    (h : built.resolve .entry (temporaryPath path) = .ok (.found l node slash)) :
    fs.resolve .entry (temporaryPath path) = .ok (.found l node slash)
      ∨ l = location ∧ fs.node? location = none := by
  rcases hfilled.resolve_before (isAbsolute_temporaryPath habsolute) h with
    hbefore | ⟨slash', heq, hvacant⟩
  · exact .inl hbefore
  · cases heq
    cases ends_of_resolve (isAbsolute_temporaryPath habsolute) hvacant with
    | vacant above isName stands => exact .inr ⟨rfl, stands⟩

/-- Building the new file changes no place that a rewrite does not touch, but the new file's own if
that was vacant. -/
theorem sameAt_built (hfiles : WellFormed fs)
    (hcreates : Creates fs created (temporaryPath path) location id)
    (hfilling : Refilled created built id) (hl : ¬ Touches fs path l)
    (hne : l ≠ location ∨ fs.node? location ≠ none) : SameAt fs built l := by
  have hfilled := hcreates.filled.of_refilled hfilling
  have hnode : built.node? l = fs.node? l := by
    rw [hfilled.after]
    split
    case isTrue heq =>
      subst heq
      rcases hfilled.before with hnone | hfile
      · exact absurd hnone (hne.resolve_left (not_not_intro rfl))
      · exact hfile.symm
    case isFalse => rfl
  refine ⟨hnode, fun j hj => ?_⟩
  -- a file that stands here is not the one that was written, or this place would be touched
  have hother : j ≠ id := by
    rintro rfl
    rcases hcreates.leads with ⟨⟨slash, hfound⟩, -⟩ | ⟨-, -, -, hnew⟩
    · exact hl (.named hfound hj)
    · exact Nat.lt_irrefl _ (hnew ▸ hfiles.data l j hj)
  rw [hfilling.others j hother, hcreates.others j hother (hfiles.data l j hj)]

/-- If something stands beside the archive, the place where a file is created there is touched or
was not vacant. -/
theorem ne_or_filled_of_standsBeside {there : Location}
    (hcreates : Creates fs created (temporaryPath path) location id) (hl : ¬ Touches fs path l)
    (hstood : StandsBeside fs path there) : l ≠ location ∨ fs.node? location ≠ none := by
  rcases hcreates.leads with ⟨-, hfile⟩ | ⟨⟨slash, hvacant⟩, -⟩
  · right
    rw [hfile]
    nofun
  · left
    rintro rfl
    exact hl (.behind hstood hvacant)

/-- Taking away what stands beside the archive, once the new file was built, leaves no trace at
places that are not touched. -/
theorem sameAt_dropped (hfiles : WellFormed fs) (habsolute : Path.isAbsolute path = true)
    (hcreates : Creates fs created (temporaryPath path) location id)
    (hfilling : Refilled created built id) (hl : ¬ Touches fs path l) {there : Location}
    {node : Node} {slash : Bool}
    (hthere : built.resolve .entry (temporaryPath path) = .ok (.found there node slash)) :
    SameAt fs (built.dropNode there) l := by
  have hfilled := hcreates.filled.of_refilled hfilling
  have hdropped (hne : l ≠ there) (hbuilt : SameAt fs built l) :
      SameAt fs (built.dropNode there) l :=
    hbuilt.trans ⟨node?_dropNode_of_ne hne, fun _ _ => rfl⟩
  rcases beside_before hfilled habsolute hthere with hstood | ⟨rfl, hnone⟩
  · have hbeside : StandsBeside fs path there :=
      ⟨node, slash, hstood, hcreates.ne_directory hstood⟩
    have hne : l ≠ there := fun heq => hl (.beside (heq ▸ hbeside))
    exact hdropped hne
      (sameAt_built hfiles hcreates hfilling hl (ne_or_filled_of_standsBeside hcreates hl hbeside))
  · by_cases heq : l = there
    · -- the new file is gone from where it was created, and nothing stands there, as before
      subst heq
      have hroot : l ≠ [] := by
        rintro rfl
        contradiction
      have hgone : (built.dropNode l).node? l = none := by rw [node?_dropNode hroot, if_pos rfl]
      refine ⟨hgone.trans hnone.symm, fun j hj => ?_⟩
      rw [hnone] at hj
      contradiction
    · exact hdropped heq (sameAt_built hfiles hcreates hfilling hl (.inl heq))

/-- A flush changes no place that it does not touch. -/
theorem sameAt_of_flushes {result : Except Error Unit} (hfiles : WellFormed fs)
    (habsolute : Path.isAbsolute path = true) (h : Flushes fs path fs' result)
    (hl : ¬ Touches fs path l) : SameAt fs fs' l := by
  -- what a flush changes is beside the archive, but for the move to its place
  cases h with
  | refused => exact .refl fs l
  | cleared removal =>
    obtain ⟨there, node, hthere, hnode, rfl⟩ := exists_of_removeFile removal
    have hne : l ≠ there := fun heq => hl (.beside (heq ▸ ⟨node, false, hthere, hnode⟩))
    exact ⟨node?_dropNode_of_ne hne, fun _ _ => rfl⟩
  | moved creation filling move =>
    have hfilled := creation.filled.of_refilled filling
    obtain ⟨source, node, there, hsource, hthere, rfl⟩ := exists_of_renameFile move
    have hne : l ≠ there := by
      rintro rfl
      refine hl (.archive (namesPlace_before hfilled habsolute ?_))
      exact hthere.imp (fun ⟨old, hold⟩ => ⟨old, false, hold⟩) fun hvacant => ⟨false, hvacant⟩
    have hdropped := sameAt_dropped hfiles habsolute creation filling hl hsource
    exact hdropped.trans ⟨node?_putNode_of_ne hne node, fun _ _ => rfl⟩
  | withdrawn creation filling removal =>
    obtain ⟨there, node, hthere, -, rfl⟩ := exists_of_removeFile removal
    exact sameAt_dropped hfiles habsolute creation filling hl hthere
  | @left e e' location id created built creation filling removal =>
    apply sameAt_built hfiles creation filling hl
    have hfilled := creation.filled.of_refilled filling
    rcases creation.leads with ⟨-, hfile⟩ | ⟨⟨slash, hvacant⟩, hnone, -⟩
    · right
      rw [hfile]
      nofun
    · rcases hfilled.resolve_entry hvacant with ⟨there, goal, slash', hlink⟩ | hfile
      · exact ne_or_filled_of_standsBeside creation hl ⟨.link goal, slash', hlink, nofun⟩
      · -- the new file could have been removed
        rw [removeFile_of_file hfile] at removal
        contradiction

/-- A flush leaves no place with a file whose data is not there. -/
theorem wellFormed_of_flushes {result : Except Error Unit} (hfiles : WellFormed fs)
    (habsolute : Path.isAbsolute path = true) (h : Flushes fs path fs' result) :
    WellFormed fs' := by
  cases h with
  | refused => exact hfiles
  | cleared removal =>
    obtain ⟨there, node, -, -, rfl⟩ := exists_of_removeFile removal
    exact wellFormed_dropNode hfiles there
  | @moved location id created built _ creation filling move =>
    have hbuilt := filling.wellFormed (creation.wellFormed hfiles)
    obtain ⟨source, node, there, hsource, -, rfl⟩ := exists_of_renameFile move
    refine wellFormed_putNode (wellFormed_dropNode hbuilt source) there ?_
    -- the file that is moved stood somewhere, so its data is there
    rintro j rfl
    rcases (ends_of_resolve (isAbsolute_temporaryPath habsolute) hsource).found_cases with
      ⟨-, hroot⟩ | ⟨-, stands, -⟩
    · contradiction
    · exact hbuilt.data source j stands
  | withdrawn creation filling removal =>
    obtain ⟨there, node, -, -, rfl⟩ := exists_of_removeFile removal
    exact wellFormed_dropNode (filling.wellFormed (creation.wellFormed hfiles)) there
  | left creation filling removal => exact filling.wellFormed (creation.wellFormed hfiles)

end Handle

/-- If no file and no link stands beside an archive, only its own place is touched. -/
theorem Touches.archive_of_forall (h : Touches fs path l)
    (hvacant : ∀ there, ¬ StandsBeside fs path there) : NamesPlace fs path l := by
  cases h with
  | archive here => exact here
  | beside here => exact absurd here (hvacant l)
  | behind stood leads => exact absurd stood (hvacant _)
  | named leads here =>
    -- a file that would be emptied stands at the place itself or behind a link
    rcases resolve_entry_of_create leads with ⟨there, goal, slash, hlink⟩ | hfile
    · exact absurd ⟨_, _, hlink, nofun⟩ (hvacant there)
    · exact absurd ⟨_, _, hfile, nofun⟩ (hvacant _)

end Reline.Archive
