/-
  Reline.Proofs.FileSystem.Growth

  A file system with one file more.

  Creating a file by a path that leads nowhere yet gives the file system with a
  new file at one place, and writing to the new file or giving it permissions
  gives the one with other data there. What the operations by paths decide, they
  decide by what the paths show.
-/

import Reline.Proofs.FileSystem.Sight

namespace Reline.FileSystem

variable {fs fs' : FileSystem} {purpose : Purpose} {location : Location} {data : FileData}

/-! ## What operations decide -/

/-- The permissions of what a path shows. -/
def Sight.mode : Sight → Except IoError Nat
  | .found _ (.file data) _ => .ok data.mode
  | .found _ (.directory mode) _ => .ok mode
  | .found _ (.link _) _ => .error (.os .linkLoop)
  | .vacant .. => .error (.os .notFound)

/-- The bytes of what a path shows. -/
def Sight.bytes : Sight → Except IoError Buffer
  | .found _ (.file data) _ => .ok data.bytes
  | .found .. => .error (.os .isDirectory)
  | .vacant .. => .error (.os .notFound)

/-- The place to which a file can be moved, given what the path shows. -/
def Sight.destination : Sight → Except IoError Location
  | .found _ _ true | .vacant _ true => .error (.os .notDirectory)
  | .found _ (.directory _) _ => .error (.os .isDirectory)
  | .found there _ _ | .vacant there _ => .ok there

theorem mode_eq_look (fs : FileSystem) (path : String) :
    fs.mode path = (fs.look .inspect path).bind Sight.mode := by
  rw [mode, inspect, look]
  cases fs.resolve .inspect path with
  | error e => rfl
  | ok target =>
    cases target with
    | vacant l slash => rfl
    | found l node slash => cases node <;> rfl

theorem contents_eq_look (fs : FileSystem) (path : String) :
    fs.contents path = (fs.look .inspect path).bind Sight.bytes := by
  rw [contents, openFile, inspect, look]
  cases fs.resolve .inspect path with
  | error e => rfl
  | ok target =>
    cases target with
    | vacant l slash => rfl
    | found l node slash => cases node <;> rfl

/-- Moving what stands at a place is decided by what the path shows to which it is moved. -/
theorem renameFile_eq_look {source : String} {node : Node}
    (hsource : fs.resolve .entry source = .ok (.found location node false)) (path : String) :
    fs.renameFile source path
      = ((fs.look .entry path).bind Sight.destination).map
          fun there => (fs.dropNode location).putNode there node := by
  rw [renameFile, hsource, look]
  cases fs.resolve .entry path with
  | error e => rfl
  | ok target =>
    cases target with
    | vacant there slash => cases slash <;> rfl
    | found there old slash =>
      cases slash with
      | true => rfl
      | false => cases old <;> rfl

/-- A file is moved to no root. -/
theorem ne_nil_of_destination {path : String} (habsolute : Path.isAbsolute path = true)
    (h : (fs.look .entry path).bind Sight.destination = .ok location) : location ≠ [] := by
  obtain ⟨shown, hlook, hdestination⟩ := bind_eq_ok_iff.1 h
  obtain ⟨target, hresolve, rfl⟩ := look_eq_ok_iff.1 hlook
  have hends := ends_of_resolve habsolute hresolve
  cases target with
  | vacant there slash =>
    cases slash with
    | true => cases hdestination
    | false =>
      cases hdestination
      cases hends with
      | vacant above isName stands => exact (InDirectory.mk above isName).ne_nil
  | found there node slash =>
    rcases hends.found_cases with ⟨-, rfl⟩ | ⟨hplace, -, -⟩
    · cases slash <;> cases hdestination
    · have hthere : there = location := by
        cases slash <;> cases node <;> cases hdestination <;> rfl
      rw [← hthere]
      exact hplace.ne_nil

/-! ## One file more -/

/-- The file system with a new file at a place. -/
def grow (fs : FileSystem) (location : Location) (data : FileData) : FileSystem :=
  (fs.addData data).2.putNode location (.file fs.files.size)

theorem files_grow (fs : FileSystem) (location : Location) (data : FileData) :
    (fs.grow location data).files = fs.files.push data := rfl

theorem size_grow (fs : FileSystem) (location : Location) (data : FileData) :
    (fs.grow location data).files.size = fs.files.size + 1 := by
  rw [files_grow, Array.size_push]

theorem node?_grow (hne : location ≠ []) (data : FileData) (l : Location) :
    (fs.grow location data).node? l
      = if l = location then some (.file fs.files.size) else fs.node? l :=
  node?_putNode hne _ l

theorem data_grow (fs : FileSystem) (location : Location) (data : FileData) (j : FileId) :
    (fs.grow location data).data j = if j = fs.files.size then data else fs.data j := by
  rw [FileSystem.data, FileSystem.data, files_grow, Array.getD_eq_getD_getElem?,
    Array.getD_eq_getD_getElem?, Array.getElem?_push]
  split <;> rfl

theorem filled_grow (hne : location ≠ []) (hvacant : fs.node? location = none)
    (data : FileData) : Filled fs (fs.grow location data) location fs.files.size :=
  ⟨.inl hvacant, node?_grow hne data, rfl⟩

theorem wellFormed_grow (h : WellFormed fs) (location : Location) (data : FileData) :
    WellFormed (fs.grow location data) := by
  have hadded : WellFormed (fs.addData data).2 := by
    refine ⟨h.current, fun l id hnode => ?_⟩
    have hsize : (fs.addData data).2.files.size = fs.files.size + 1 := Array.size_push ..
    rw [hsize]
    exact Nat.lt_succ_of_lt (h.data l id hnode)
  refine wellFormed_putNode hadded location fun id hid => ?_
  cases hid
  exact Nat.lt_of_lt_of_eq (Nat.lt_succ_self _) (Array.size_push ..).symm

/-- The new file is seen at its place, and all else as before. -/
theorem content?_grow (h : WellFormed fs) (hne : location ≠ []) (data : FileData) (l : Location) :
    (fs.grow location data).content? l
      = if l = location then some (.file data) else fs.content? l := by
  rw [content?, content?, node?_grow hne]
  split
  case isTrue => rw [Option.map_some, content, data_grow, if_pos rfl]
  case isFalse =>
    cases hnode : fs.node? l with
    | none => rfl
    | some node =>
      cases node with
      | directory mode => rfl
      | link goal => rfl
      | file id =>
        -- a file that was there has another number
        rw [Option.map_some, Option.map_some, content, content, data_grow,
          if_neg (Nat.ne_of_lt (h.data l id hnode))]

theorem ended_grow (fs : FileSystem) (hne : location ≠ []) (data : FileData) :
    Ended fs (fs.grow location data) := by
  refine ended_of_nodes fun l => ?_
  rw [node?_grow hne]
  split
  · exact .inr (.inr ⟨_, rfl⟩)
  · exact .inl rfl

/-- Changing the data of the new file gives the file system with other data there. -/
theorem modifyData_grow (fs : FileSystem) (location : Location) (data : FileData)
    (f : FileData → FileData) :
    (fs.grow location data).modifyData fs.files.size f = fs.grow location (f data) := by
  have hfiles : (fs.files.push data).modify fs.files.size f = fs.files.push (f data) := by
    refine Array.ext_getElem? fun i => ?_
    rw [Array.getElem?_modify, Array.getElem?_push, Array.getElem?_push]
    by_cases hi : fs.files.size = i
    · rw [if_pos hi, if_pos hi.symm, if_pos hi.symm]
      rfl
    · rw [if_neg hi, if_neg (Ne.symm hi), if_neg (Ne.symm hi)]
  rw [modifyData, files_grow, hfiles]
  rfl

theorem write_grow (fs : FileSystem) (location : Location) (mode : Nat) (bytes : Bytes) :
    (fs.grow location ⟨#[], mode, .disk⟩).write fs.files.size 0 bytes
      = .ok (fs.grow location ⟨bytes.toArray, mode, .disk⟩) := by
  rw [write, data_grow, if_pos rfl]
  dsimp only
  rw [modifyData_grow, Buffer.overwrite_empty]

theorem sync_grow (fs : FileSystem) (location : Location) (mode : Nat) (bytes : Buffer) :
    (fs.grow location ⟨bytes, mode, .disk⟩).sync fs.files.size = .ok () := by
  rw [sync, data_grow, if_pos rfl]

/-! ## Paths to the new file -/

/-- Creating a file by a path that leads nowhere. -/
theorem createFile_of_vacant {path : String} {slash : Bool}
    (h : fs.resolve .create path = .ok (.vacant location slash)) :
    fs.createFile path = .ok (fs.files.size, fs.grow location ⟨#[], newFileMode, .disk⟩) := by
  rw [createFile, h]
  rfl

/-- Where a path from the root that names nothing would create a file, nothing stands. -/
theorem vacant_of_create {path : String} (habsolute : Path.isAbsolute path = true)
    (hfree : ∀ l node slash, fs.resolve .entry path ≠ .ok (.found l node slash)) {target : Target}
    (h : fs.resolve .create path = .ok target) :
    ∃ l, target = .vacant l false ∧ fs.resolve .entry path = .ok (.vacant l false)
      ∧ l ≠ [] ∧ fs.node? l = none := by
  rcases resolve_entry_of_create h with ⟨there, goal, slash, hlink⟩ | hentry
  · exact absurd hlink (hfree there _ slash)
  · cases target with
    | found l node slash => exact absurd hentry (hfree l node slash)
    | vacant l slash =>
      obtain ⟨-, -, -, hleads⟩ := resolve_eq_ok_iff.1 h
      obtain rfl := hleads.slash_of_create
      cases ends_of_resolve habsolute hentry with
      | vacant above isName stands =>
        exact ⟨_, rfl, hentry, (InDirectory.mk above isName).ne_nil, stands⟩

/-- A path that named nothing names the new file that was created by it. -/
theorem resolve_entry_grow {path : String} (hne : location ≠ [])
    (hentry : fs.resolve .entry path = .ok (.vacant location false)) (data : FileData) :
    (fs.grow location data).resolve .entry path
      = .ok (.found location (.file fs.files.size) false) := by
  have hvacant := (mem_way_of_vacant hentry).2
  obtain ⟨hnul, hempty, hshort, hleads⟩ := resolve_eq_ok_iff.1 hentry
  exact resolve_eq_ok_iff.2
    ⟨hnul, hempty, hshort, (filled_grow hne hvacant data).leads_vacant hleads⟩

/-- Giving permissions to the new file by the path by which it was created. -/
theorem setMode_grow {path : String} (hne : location ≠ [])
    (hcreate : fs.resolve .create path = .ok (.vacant location false)) (data : FileData)
    (mode : Nat) :
    (fs.grow location data).setMode path mode = .ok (fs.grow location { data with mode }) := by
  have hvacant := (mem_way_of_vacant hcreate).2
  obtain ⟨slash, hresolve⟩ :=
    (filled_grow hne hvacant data).resolve_inspect (.inr hcreate)
  rw [setMode, inspect_eq_ok_iff.2 ⟨slash, hresolve⟩]
  exact congrArg Except.ok (modifyData_grow ..)

end Reline.FileSystem
