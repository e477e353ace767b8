/-
  Reline.Proofs.Archive.Outcome

  What putting staged writes into an archive's file comes to, if nothing stands
  in the way beside it.

  It fails and nothing can be seen of it, or a file with the rebuilt archive and
  the permissions of the old one is seen at the archive's place, and nothing else
  is seen to be different. Which of these it is, and why it fails, depends on the
  file that was opened and on the places on the ways of two paths: the archive's
  and the one beside it.

  Main statements: `becomes_flush`, `outcome_congr`.
-/

import Reline.Proofs.Archive.Rewriting
import Reline.Proofs.FileSystem.Growth

namespace Reline.Archive

open FileSystem

/-! ## Changes that can be seen -/

/-- A place at which a file is seen afterwards. -/
abbrev Placed := Location × FileData

/-- A file system that came of another and shows a file at a place, or nothing new; files that were
there keep their data. -/
structure Becomes (fs fs' : FileSystem) (placed : Option Placed) : Prop where
  content : ∀ l, fs'.content? l = match placed with
    | some (there, data) => if l = there then some (.file data) else fs.content? l
    | none => fs.content? l
  data : ∀ j < fs.files.size, fs'.data j = fs.data j
  size : fs.files.size ≤ fs'.files.size
  current : fs'.current = fs.current
  wellFormed : WellFormed fs'

variable {fs fs' : FileSystem} {source : Source} {staged : OrderedTable String Bytes}
  {path : String}

theorem Becomes.refl (h : WellFormed fs) : Becomes fs fs none :=
  ⟨fun _ => rfl, fun _ _ => rfl, Nat.le_refl _, rfl, h⟩

theorem Becomes.ended {placed : Option Placed} (h : Becomes fs fs' placed) : Ended fs fs' := by
  -- a file that is seen somewhere is no directory and no link
  have hseen {l : Location} {shown : Content} (hshown : fs'.content? l = some shown)
      (hfile : ∀ data, shown ≠ .file data) : fs.content? l = some shown := by
    rw [h.content] at hshown
    cases placed with
    | none => exact hshown
    | some placed =>
      dsimp only at hshown
      split at hshown
      case isTrue => exact absurd (Option.some.inj hshown).symm (hfile _)
      case isFalse => exact hshown
  refine ⟨fun l mode hnode => ⟨mode, ?_⟩, fun l goal hnode => ?_⟩
  · exact node?_eq_directory_iff.2 (hseen (node?_eq_directory_iff.1 hnode) nofun)
  · exact node?_eq_link_iff.2 (hseen (node?_eq_link_iff.1 hnode) nofun)

namespace Handle

/-! ## A new file that was given up or moved -/

/-- A new file that was removed again leaves nothing to be seen. -/
theorem becomes_withdrawn (hfiles : WellFormed fs) {beside : Location} (hne : beside ≠ [])
    (hvacant : fs.node? beside = none) (data : FileData) :
    Becomes fs ((fs.grow beside data).dropNode beside) none where
  content l := by
    dsimp only
    by_cases hl : l = beside
    · rw [content?, hl, node?_dropNode hne, if_pos rfl]
      exact (node?_eq_none_iff.1 hvacant).symm
    · have hgrown := content?_grow hfiles hne data l
      rw [if_neg hl] at hgrown
      rw [← hgrown, content?, node?_dropNode hne, if_neg hl]
      rfl
  data j hj := (data_grow fs beside data j).trans (if_neg (Nat.ne_of_lt hj))
  size := (size_grow fs beside data).symm ▸ Nat.le_succ _
  current := rfl
  wellFormed := wellFormed_dropNode (wellFormed_grow hfiles beside data) beside

/-- A new file that was moved is seen where it was moved to. -/
theorem becomes_moved (hfiles : WellFormed fs) {beside there : Location} (hne : beside ≠ [])
    (hvacant : fs.node? beside = none) (hthere : there ≠ []) (data : FileData) :
    Becomes fs (((fs.grow beside data).dropNode beside).putNode there (.file fs.files.size))
      (some (there, data)) := by
  have hwithdrawn := becomes_withdrawn hfiles hne hvacant data
  have hnew : (fs.grow beside data).data fs.files.size = data := by rw [data_grow, if_pos rfl]
  refine ⟨fun l => ?_, hwithdrawn.data, hwithdrawn.size, rfl, ?_⟩
  · dsimp only
    rw [content?, node?_putNode hthere]
    by_cases hl : l = there
    · rw [if_pos hl, if_pos hl, Option.map_some]
      exact congrArg (fun data => some (Content.file data)) hnew
    · rw [if_neg hl, if_neg hl]
      exact hwithdrawn.content l
  · refine wellFormed_putNode hwithdrawn.wellFormed there fun id hid => ?_
    cases hid
    exact Nat.lt_of_lt_of_eq (Nat.lt_succ_self _) (size_grow fs beside data).symm

/-! ## The outcome -/

/-- What a flush comes to if nothing stands beside the archive: the file that is then seen at the
archive's place. -/
def outcome (fs : FileSystem) (source : Source) (staged : OrderedTable String Bytes)
    (path : String) : Except Error Placed :=
  match fs.look .create (temporaryPath path) with
  | .error e => .error (.io (temporaryPath path) e)
  | .ok (.found beside ..) | .ok (.vacant beside _) =>
    match rebuilt (source.bytes fs) source.directory staged with
    | .error e => .error (.ofZip (temporaryPath path) e)
    | .ok bytes =>
      let built := fs.grow beside ⟨bytes.toArray, newFileMode, .disk⟩
      match (built.look .inspect path).bind Sight.mode with
      | .error e => .error (.io path e)
      | .ok mode =>
        let permitted := fs.grow beside ⟨bytes.toArray, mode, .disk⟩
        match (permitted.look .entry path).bind Sight.destination with
        | .error e => .error (.io path e)
        | .ok there => .ok (there, ⟨bytes.toArray, mode, .disk⟩)

/-- The file that was opened is read as before while a new one is there. -/
theorem bytes_grow (h : source.file < fs.files.size) (location : Location) (data : FileData) :
    source.bytes (fs.grow location data) = source.bytes fs := by
  rw [Source.bytes, Source.bytes, data_grow, if_neg (Nat.ne_of_lt h)]

section Steps

variable {beside : Location}

/-- If the new file cannot be created, there is nothing to remove. -/
theorem flush_of_create_error {e : IoError}
    (hfree : ∀ l node slash, fs.resolve .entry (temporaryPath path) ≠ .ok (.found l node slash))
    (hcreate : fs.resolve .create (temporaryPath path) = .error e) :
    flush fs source staged path = (fs, .error (.io (temporaryPath path) e)) := by
  have hrebuild : rebuild fs source staged (temporaryPath path)
      = (fs, .error (.io (temporaryPath path) e)) := by
    rw [rebuild, createFile, hcreate]
    rfl
  rw [flush]
  dsimp only
  rw [hrebuild]
  dsimp only
  cases hremove : fs.removeFile (temporaryPath path) with
  | error e' => rfl
  | ok fs' =>
    obtain ⟨l, node, hfound, -, -⟩ := exists_of_removeFile hremove
    exact absurd hfound (hfree l node false)

/-- Where nothing stands, the new file has the rebuilt archive, or nothing if there is none. -/
theorem rebuild_of_vacant (hsource : source.file < fs.files.size)
    (hcreate : fs.resolve .create (temporaryPath path) = .ok (.vacant beside false)) :
    rebuild fs source staged (temporaryPath path)
      = match rebuilt (source.bytes fs) source.directory staged with
        | .error e =>
          (fs.grow beside ⟨#[], newFileMode, .disk⟩, .error (.ofZip (temporaryPath path) e))
        | .ok bytes => (fs.grow beside ⟨bytes.toArray, newFileMode, .disk⟩, .ok ()) := by
  rw [rebuild, createFile_of_vacant hcreate]
  dsimp only
  have hmedium : ((fs.grow beside ⟨#[], newFileMode, .disk⟩).data fs.files.size).medium
      = .disk := by
    rw [data_grow, if_pos rfl]
  rw [hmedium, bytes_grow hsource, rebuiltPart]
  cases rebuilt (source.bytes fs) source.directory staged with
  | error e => rfl
  | ok bytes =>
    dsimp only
    rw [write_grow]
    dsimp only
    rw [sync_grow]
    rfl

/-- What the archive's path shows while the new file is there decides whether it is moved. -/
theorem install_grow (hne : beside ≠ [])
    (hcreate : fs.resolve .create (temporaryPath path) = .ok (.vacant beside false))
    (hentry : fs.resolve .entry (temporaryPath path) = .ok (.vacant beside false))
    (bytes : Buffer) :
    install (fs.grow beside ⟨bytes, newFileMode, .disk⟩) (temporaryPath path) path
      = match ((fs.grow beside ⟨bytes, newFileMode, .disk⟩).look .inspect path).bind Sight.mode with
        | .error e => (fs.grow beside ⟨bytes, newFileMode, .disk⟩, .error (.io path e))
        | .ok mode =>
          match ((fs.grow beside ⟨bytes, mode, .disk⟩).look .entry path).bind Sight.destination with
          | .error e => (fs.grow beside ⟨bytes, mode, .disk⟩, .error (.io path e))
          | .ok there =>
            (((fs.grow beside ⟨bytes, mode, .disk⟩).dropNode beside).putNode there
              (.file fs.files.size), .ok ()) := by
  rw [install, mode_eq_look]
  cases ((fs.grow beside ⟨bytes, newFileMode, .disk⟩).look .inspect path).bind Sight.mode with
  | error e => rfl
  | ok mode =>
    dsimp only
    rw [setMode_grow hne hcreate]
    dsimp only
    rw [renameFile_eq_look (resolve_entry_grow hne hentry _)]
    cases ((fs.grow beside ⟨bytes, mode, .disk⟩).look .entry path).bind Sight.destination with
    | error e => rfl
    | ok there => rfl

end Steps

/-- A flush in a file system where nothing stands beside the archive comes to its outcome, which is
all that can be seen of it. -/
theorem becomes_flush (hfiles : WellFormed fs) (habsolute : Path.isAbsolute path = true)
    (hsource : source.file < fs.files.size)
    (hfree : ∀ l node slash, fs.resolve .entry (temporaryPath path) ≠ .ok (.found l node slash)) :
    (flush fs source staged path).2 = (outcome fs source staged path).map (fun _ => ())
      ∧ Becomes fs (flush fs source staged path).1 (outcome fs source staged path).toOption := by
  have htemporary : Path.isAbsolute (temporaryPath path) = true :=
    Path.isAbsolute_append habsolute ".tmp"
  cases hcreate : fs.resolve .create (temporaryPath path) with
  | error e =>
    rw [flush_of_create_error hfree hcreate, outcome, look_eq_error_iff.2 hcreate]
    exact ⟨rfl, .refl hfiles⟩
  | ok target =>
    obtain ⟨beside, rfl, hentry, hne, hvacant⟩ := vacant_of_create htemporary hfree hcreate
    -- whatever the data of the new file, the path beside the archive leads to it
    have hremove (data : FileData) : (fs.grow beside data).removeFile (temporaryPath path)
        = .ok ((fs.grow beside data).dropNode beside) :=
      removeFile_of_file (resolve_entry_grow hne hentry data)
    rw [flush, outcome, look_eq_vacant_iff.2 hcreate]
    dsimp only
    rw [rebuild_of_vacant hsource hcreate]
    cases rebuilt (source.bytes fs) source.directory staged with
    | error e =>
      dsimp only
      rw [hremove]
      exact ⟨rfl, becomes_withdrawn hfiles hne hvacant _⟩
    | ok bytes =>
      dsimp only
      rw [install_grow hne hcreate hentry]
      cases ((fs.grow beside ⟨bytes.toArray, newFileMode, .disk⟩).look .inspect path).bind
          Sight.mode with
      | error e =>
        dsimp only
        rw [hremove]
        exact ⟨rfl, becomes_withdrawn hfiles hne hvacant _⟩
      | ok mode =>
        dsimp only
        cases hdestination : ((fs.grow beside ⟨bytes.toArray, mode, .disk⟩).look .entry
            path).bind Sight.destination with
        | error e =>
          dsimp only
          rw [hremove]
          exact ⟨rfl, becomes_withdrawn hfiles hne hvacant _⟩
        | ok there =>
          have hthere : there ≠ [] := ne_nil_of_destination habsolute hdestination
          exact ⟨rfl, becomes_moved hfiles hne hvacant hthere _⟩

/-- What has happened on the way to an outcome that places a file. -/
theorem exists_of_outcome (habsolute : Path.isAbsolute path = true)
    (hfree : ∀ l node slash, fs.resolve .entry (temporaryPath path) ≠ .ok (.found l node slash))
    {placed : Placed} (h : outcome fs source staged path = .ok placed) :
    ∃ beside bytes mode, fs.resolve .entry (temporaryPath path) = .ok (.vacant beside false)
      ∧ beside ≠ [] ∧ fs.node? beside = none
      ∧ rebuilt (source.bytes fs) source.directory staged = .ok bytes
      ∧ ((fs.grow beside ⟨bytes.toArray, newFileMode, .disk⟩).look .inspect path).bind Sight.mode
        = .ok mode
      ∧ ((fs.grow beside ⟨bytes.toArray, mode, .disk⟩).look .entry path).bind Sight.destination
        = .ok placed.1
      ∧ placed.2 = ⟨bytes.toArray, mode, .disk⟩ := by
  have htemporary : Path.isAbsolute (temporaryPath path) = true :=
    Path.isAbsolute_append habsolute ".tmp"
  rw [outcome] at h
  cases hcreate : fs.resolve .create (temporaryPath path) with
  | error e =>
    rw [look_eq_error_iff.2 hcreate] at h
    cases h
  | ok target =>
    obtain ⟨beside, rfl, hentry, hne, hvacant⟩ := vacant_of_create htemporary hfree hcreate
    rw [look_eq_vacant_iff.2 hcreate] at h
    dsimp only at h
    -- the archive is rebuilt, then its permissions and its place are looked up
    split at h
    case h_1 => cases h
    case h_2 bytes hrebuilt =>
      split at h
      case h_1 => cases h
      case h_2 mode hmode =>
        split at h
        case h_1 => cases h
        case h_2 there hdestination =>
          cases h
          exact ⟨beside, bytes, mode, hentry, hne, hvacant, hrebuilt, hmode, hdestination, rfl⟩

/-! ## What decides the outcome -/

/-- The outcome is the same in file systems that look alike on the ways of the archive's path and of
the path beside it, and in which the file that was opened has the same data. -/
theorem outcome_congr (hfiles : WellFormed fs) (hfiles' : WellFormed fs')
    (habsolute : Path.isAbsolute path = true)
    (hfree : ∀ l node slash, fs.resolve .entry (temporaryPath path) ≠ .ok (.found l node slash))
    (hcurrent : fs'.current = fs.current) (hsource : fs'.data source.file = fs.data source.file)
    (hway : ∀ l ∈ fs.way path, fs'.content? l = fs.content? l)
    (hbeside : ∀ l ∈ fs.way (temporaryPath path), fs'.content? l = fs.content? l) :
    outcome fs' source staged path = outcome fs source staged path := by
  have htemporary : Path.isAbsolute (temporaryPath path) = true :=
    Path.isAbsolute_append habsolute ".tmp"
  have hbytes : source.bytes fs' = source.bytes fs := by rw [Source.bytes, Source.bytes, hsource]
  rw [outcome, outcome, look_congr .create hbeside hcurrent, hbytes]
  cases hcreate : fs.resolve .create (temporaryPath path) with
  | error e => rw [look_eq_error_iff.2 hcreate]
  | ok target =>
    obtain ⟨beside, rfl, hentry, hne, hvacant⟩ := vacant_of_create htemporary hfree hcreate
    rw [look_eq_vacant_iff.2 hcreate]
    -- also with the new file, the archive's path goes over no other places
    have hlook (purpose : Purpose) (data : FileData) :
        (fs'.grow beside data).look purpose path = (fs.grow beside data).look purpose path := by
      refine look_congr purpose (fun l hl => ?_) hcurrent
      rw [content?_grow hfiles' hne, content?_grow hfiles hne]
      have hstill := (ended_grow fs hne data).way_subset rfl hl
      rw [hway l hstill]
    simp only [hlook]

theorem namesPlace_of_destination {there : Location}
    (h : (fs.look .entry path).bind Sight.destination = .ok there) : NamesPlace fs path there := by
  obtain ⟨shown, hlook, hdestination⟩ := bind_eq_ok_iff.1 h
  obtain ⟨target, hresolve, rfl⟩ := look_eq_ok_iff.1 hlook
  cases target with
  | vacant l slash =>
    cases slash <;> cases hdestination
    exact .inr ⟨_, hresolve⟩
  | found l node slash =>
    have hthere : l = there := by
      cases slash <;> cases node <;> cases hdestination <;> rfl
    subst hthere
    exact .inl ⟨node, slash, hresolve⟩

/-- The file is placed where the archive's path names a place. -/
theorem namesPlace_of_outcome (habsolute : Path.isAbsolute path = true)
    (hfree : ∀ l node slash, fs.resolve .entry (temporaryPath path) ≠ .ok (.found l node slash))
    {placed : Placed} (h : outcome fs source staged path = .ok placed) :
    NamesPlace fs path placed.1 := by
  obtain ⟨beside, bytes, mode, -, hne, hvacant, -, -, hdestination, -⟩ :=
    exists_of_outcome habsolute hfree h
  exact namesPlace_before (filled_grow hne hvacant _) habsolute
    (namesPlace_of_destination hdestination)

end Handle

/-- The place that a path names lies on its way. -/
theorem NamesPlace.mem_way {l : Location} (h : NamesPlace fs path l) : l ∈ fs.way path := by
  rcases h with ⟨node, slash, hfound⟩ | ⟨slash, hvacant⟩
  · exact (mem_way_of_found hfound).1
  · exact (mem_way_of_vacant hvacant).1

end Reline.Archive
