/-
  Reline.Proofs.FileSystem.Operations

  What the operations on a file system change.

  Each operation by paths is described by what stands at places and by the data
  of files before and after it: creating, writing and giving permissions leave
  alone what stood there, and a move changes two places.
-/

import Reline.Proofs.FileSystem.Resolve
import Reline.Proofs.OrderedTable

namespace Reline.FileSystem

variable {fs fs' : FileSystem}

/-! ## Places and data -/

/-- What stands at places after something was put at one. -/
theorem node?_putNode {location : Location} (hne : location ≠ []) (node : Node) (l : Location) :
    (fs.putNode location node).node? l = if l = location then some node else fs.node? l := by
  rw [node?, node?, putNode]
  dsimp only
  rw [OrderedTable.lookup_cons_eq]
  split
  case isTrue hroot => rw [if_neg (hroot ▸ hne.symm)]
  case isFalse hroot =>
    split
    case isTrue => rfl
    case isFalse hl =>
      have hfilter := OrderedTable.lookup_filter_ne location l fs.nodes
      rw [if_neg hl] at hfilter
      exact hfilter

/-- What stands at places after it was removed at one. -/
theorem node?_dropNode {location : Location} (hne : location ≠ []) (l : Location) :
    (fs.dropNode location).node? l = if l = location then none else fs.node? l := by
  rw [node?, node?, dropNode]
  split
  case isTrue hroot => rw [if_neg (hroot ▸ hne.symm)]
  case isFalse hroot => exact OrderedTable.lookup_filter_ne location l fs.nodes

theorem node?_modifyData (id : FileId) (f : FileData → FileData) (l : Location) :
    (fs.modifyData id f).node? l = fs.node? l := rfl

/-- Changing the data of a file changes it and no other. -/
theorem data_modifyData {id : FileId} (hid : id < fs.files.size) (f : FileData → FileData)
    (j : FileId) : (fs.modifyData id f).data j = if j = id then f (fs.data id) else fs.data j := by
  rw [data, data, data, modifyData, Array.getD_eq_getD_getElem?, Array.getD_eq_getD_getElem?,
    Array.getD_eq_getD_getElem?, Array.getElem?_modify]
  by_cases hj : j = id
  · rw [if_pos hj.symm, if_pos hj, hj, Array.getElem?_eq_getElem hid]
    rfl
  · rw [if_neg (Ne.symm hj), if_neg hj]

theorem size_modifyData (id : FileId) (f : FileData → FileData) :
    (fs.modifyData id f).files.size = fs.files.size := Array.size_modify ..

/-! ## Reading -/

theorem inspect_eq_ok_iff {path : String} {location : Location} {node : Node} :
    fs.inspect path = .ok (location, node)
      ↔ ∃ slash, fs.resolve .inspect path = .ok (.found location node slash) := by
  rw [inspect]
  cases hresolve : fs.resolve .inspect path with
  | error e => exact ⟨nofun, nofun⟩
  | ok target =>
    cases target with
    | vacant l s => exact ⟨nofun, nofun⟩
    | found l n s =>
      constructor
      · intro h
        cases h
        exact ⟨s, rfl⟩
      · rintro ⟨slash, h⟩
        cases h
        rfl

theorem openFile_eq_ok_some_iff {path : String} {id : FileId} :
    fs.openFile path = .ok (some id) ↔ ∃ location, fs.inspect path = .ok (location, .file id) := by
  rw [openFile]
  cases hinspect : fs.inspect path with
  | error e => exact ⟨nofun, nofun⟩
  | ok pair =>
    obtain ⟨location, node⟩ := pair
    cases node with
    | directory mode => exact ⟨nofun, nofun⟩
    | link goal => exact ⟨nofun, nofun⟩
    | file id' =>
      constructor
      · intro h
        cases h
        exact ⟨location, rfl⟩
      · rintro ⟨location', h⟩
        cases h
        rfl

theorem canonical_eq_ok_iff {path key : String} :
    fs.canonical path = .ok key
      ↔ ∃ location node, fs.inspect path = .ok (location, node) ∧ key = pathOf location := by
  rw [canonical]
  cases hinspect : fs.inspect path with
  | error e => exact ⟨nofun, nofun⟩
  | ok pair =>
    obtain ⟨location, node⟩ := pair
    constructor
    · intro h
      cases h
      exact ⟨location, node, rfl, rfl⟩
    · rintro ⟨location', node', h, rfl⟩
      cases h
      rfl

/-- A path that leads to the file leads to the file in its place. -/
theorem Replaced.inspect {location removed : Location} {id old : FileId} {path : String}
    (h : Replaced fs fs' location removed id)
    (hpath : fs.inspect path = .ok (location, .file old)) :
    fs'.inspect path = .ok (location, .file id) := by
  obtain ⟨slash, hresolve⟩ := inspect_eq_ok_iff.1 hpath
  obtain ⟨hnul, hempty, hshort, hleads⟩ := resolve_eq_ok_iff.1 hresolve
  refine inspect_eq_ok_iff.2 ⟨slash, resolve_eq_ok_iff.2 ⟨hnul, hempty, hshort, ?_⟩⟩
  rw [h.current]
  exact h.leads hleads

/-- A path that leads to something afterwards led to something at that place before. -/
theorem Replaced.inspect_before {location removed l : Location} {id : FileId} {path : String}
    {node : Node} (h : Replaced fs fs' location removed id)
    (hpath : fs'.inspect path = .ok (l, node)) : ∃ node', fs.inspect path = .ok (l, node') := by
  obtain ⟨slash, hresolve⟩ := inspect_eq_ok_iff.1 hpath
  obtain ⟨hnul, hempty, hshort, hleads⟩ := resolve_eq_ok_iff.1 hresolve
  rw [h.current] at hleads
  obtain ⟨node', hbefore⟩ := h.leads_before hleads
  exact ⟨node', inspect_eq_ok_iff.2
    ⟨slash, resolve_eq_ok_iff.2 ⟨hnul, hempty, hshort, hbefore⟩⟩⟩

/-- A file that a path from the root finds stands in a directory. -/
theorem node?_of_inspect {path : String} (habsolute : Path.isAbsolute path = true)
    {location : Location} {id : FileId} (h : fs.inspect path = .ok (location, .file id)) :
    InDirectory fs location ∧ fs.node? location = some (.file id) := by
  obtain ⟨slash, hresolve⟩ := inspect_eq_ok_iff.1 h
  rcases (ends_of_resolve habsolute hresolve).found_cases with
    ⟨-, hroot⟩ | ⟨hplace, stands, -⟩
  · contradiction
  · exact ⟨hplace, stands⟩

/-- A path whose canonical form is the path of a file leads to that file. -/
theorem inspect_of_canonical (hcurrent : ∀ name ∈ fs.current, IsName name) {location : Location}
    (hplace : InDirectory fs location) {id : FileId} (hnode : fs.node? location = some (.file id))
    {path : String} (h : fs.canonical path = .ok (pathOf location)) :
    fs.inspect path = .ok (location, .file id) := by
  obtain ⟨location', node, hpath, heq⟩ := canonical_eq_ok_iff.1 h
  obtain ⟨slash, hresolve⟩ := inspect_eq_ok_iff.1 hpath
  have hnamed := (named_of_resolve hcurrent hresolve).isName
  have hsame : location = location' := pathOf_injective hplace.ne_nil hplace.isName hnamed.1 heq
  have hstands := hnamed.2
  rw [← hsame, hnode] at hstands
  rw [hpath, hsame, Option.some.inj hstands]

/-! ## Writing -/

/-- A file system in which everything stands where it stood, perhaps with new permissions, and
perhaps something is new. -/
structure Keeps (fs fs' : FileSystem) : Prop where
  current : fs'.current = fs.current
  node : ∀ l node, fs.node? l = some node → fs'.node? l = some node
    ∨ ∃ mode mode', node = .directory mode ∧ fs'.node? l = some (.directory mode')

theorem keeps_modifyData (fs : FileSystem) (id : FileId) (f : FileData → FileData) :
    Keeps fs (fs.modifyData id f) :=
  ⟨rfl, fun _ _ h => .inl h⟩

theorem Keeps.trans {fs'' : FileSystem} (h : Keeps fs fs') (h' : Keeps fs' fs'') :
    Keeps fs fs'' := by
  refine ⟨h'.current.trans h.current, fun l node hnode => ?_⟩
  rcases h.node l node hnode with hstays | ⟨mode, mode', rfl, hdir⟩
  · exact h'.node l node hstays
  · rcases h'.node l _ hdir with hstays | ⟨-, mode'', -, hdir'⟩
    · exact .inr ⟨mode, mode', rfl, hstays⟩
    · exact .inr ⟨mode, mode'', rfl, hdir'⟩

theorem Keeps.link {l : Location} {goal : String} (h : Keeps fs fs')
    (hlink : fs.node? l = some (.link goal)) : fs'.node? l = some (.link goal) := by
  rcases h.node l _ hlink with hstays | ⟨mode, mode', hnot, -⟩
  · exact hstays
  · contradiction

theorem Keeps.reaches {dir : Location} (h : Keeps fs fs') (hdir : Reaches fs dir) :
    Reaches fs' dir := by
  refine hdir.of_forall fun l mode hmode => ?_
  rcases h.node l _ hmode with hstays | ⟨-, mode', -, hdir'⟩
  · exact ⟨mode, hstays⟩
  · exact ⟨mode', hdir'⟩

theorem Keeps.inDirectory {l : Location} (h : Keeps fs fs') (hplace : InDirectory fs l) :
    InDirectory fs' l := by
  obtain ⟨above, isName⟩ := hplace
  exact .mk (h.reaches above) isName

/-- What creating a file does: it empties a file that is there, or puts an empty one where nothing
is. -/
theorem exists_of_createFile {path : String} {id : FileId}
    (h : fs.createFile path = .ok (id, fs')) :
    (∃ location slash, fs.resolve .create path = .ok (.found location (.file id) slash)
        ∧ fs' = fs.modifyData id fun d => { d with bytes := #[] })
      ∨ ∃ location slash, fs.resolve .create path = .ok (.vacant location slash)
        ∧ id = fs.files.size
        ∧ fs' = (fs.addData ⟨#[], newFileMode, .disk⟩).2.putNode location (.file id) := by
  rw [createFile] at h
  cases hresolve : fs.resolve .create path with
  | error e =>
    rw [hresolve] at h
    contradiction
  | ok target =>
    rw [hresolve] at h
    cases target with
    | vacant location slash =>
      cases h
      exact .inr ⟨location, slash, rfl, rfl, rfl⟩
    | found location node slash =>
      cases node with
      | directory mode => contradiction
      | link goal => contradiction
      | file old =>
        cases h
        exact .inl ⟨location, slash, rfl, rfl⟩

/-- Creating a file leaves alone what was there. -/
theorem keeps_createFile {path : String} (habsolute : Path.isAbsolute path = true) {id : FileId}
    (h : fs.createFile path = .ok (id, fs')) : Keeps fs fs' := by
  rcases exists_of_createFile h with ⟨l, slash, hresolve, rfl⟩ | ⟨l, slash, hresolve, rfl, rfl⟩
  · exact keeps_modifyData fs _ _
  · cases ends_of_resolve habsolute hresolve with
    | vacant above isName stands =>
      refine ⟨rfl, fun l' node hnode => .inl ?_⟩
      rw [node?_putNode (InDirectory.mk above isName).ne_nil, if_neg]
      · exact hnode
      · rintro rfl
        rw [stands] at hnode
        contradiction

/-- Bytes that were written and reached a disk. -/
theorem eq_of_write_of_sync {id : FileId} {offset : Nat} {bytes : Bytes}
    (hwrite : fs.write id offset bytes = .ok fs') (hsync : fs'.sync id = .ok ()) :
    (fs.data id).medium = .disk
      ∧ fs' = fs.modifyData id fun d => { d with bytes := d.bytes.overwrite offset bytes } := by
  rw [write] at hwrite
  cases hmedium : (fs.data id).medium with
  | disk =>
    rw [hmedium] at hwrite
    cases hwrite
    exact ⟨rfl, rfl⟩
  | sink =>
    rw [hmedium] at hwrite
    cases hwrite
    rw [sync, hmedium] at hsync
    contradiction
  | full =>
    rw [hmedium] at hwrite
    dsimp only at hwrite
    split at hwrite
    · cases hwrite
      rw [sync, hmedium] at hsync
      contradiction
    · contradiction

/-- What setting permissions does. -/
theorem exists_of_setMode {path : String} {mode : Nat} (h : fs.setMode path mode = .ok fs') :
    (∃ location id, fs.inspect path = .ok (location, .file id)
        ∧ fs' = fs.modifyData id fun d => { d with mode })
      ∨ ∃ location old, fs.inspect path = .ok (location, .directory old)
        ∧ fs' = fs.putNode location (.directory mode) := by
  rw [setMode] at h
  cases hinspect : fs.inspect path with
  | error e =>
    rw [hinspect] at h
    contradiction
  | ok pair =>
    obtain ⟨location, node⟩ := pair
    rw [hinspect] at h
    cases node with
    | link goal => contradiction
    | file id =>
      cases h
      exact .inl ⟨location, id, rfl, rfl⟩
    | directory old =>
      cases h
      exact .inr ⟨location, old, rfl, rfl⟩

/-- Setting permissions leaves alone what is there. -/
theorem keeps_setMode {path : String} (habsolute : Path.isAbsolute path = true) {mode : Nat}
    (h : fs.setMode path mode = .ok fs') : Keeps fs fs' := by
  rcases exists_of_setMode h with ⟨l, id, hinspect, rfl⟩ | ⟨l, old, hinspect, rfl⟩
  · exact keeps_modifyData fs _ _
  · obtain ⟨slash, hresolve⟩ := inspect_eq_ok_iff.1 hinspect
    refine ⟨rfl, fun l' node hnode => ?_⟩
    rcases (ends_of_resolve habsolute hresolve).found_cases with ⟨rfl, -⟩ | ⟨hplace, stands, -⟩
    · -- the permissions of the root are not kept
      left
      by_cases hl' : l' = []
      · rw [hl'] at hnode ⊢
        exact hnode
      · rw [node?, if_neg hl'] at hnode ⊢
        rw [putNode]
        dsimp only
        rw [OrderedTable.lookup_cons_eq, if_neg hl', OrderedTable.lookup_filter_ne, if_neg hl']
        exact hnode
    · rw [node?_putNode hplace.ne_nil]
      split
      case isTrue heq =>
        rw [heq, stands] at hnode
        cases hnode
        exact .inr ⟨old, mode, rfl, rfl⟩
      case isFalse => exact .inl hnode

/-- What moving a file does. -/
theorem exists_of_renameFile {source destination : String}
    (h : fs.renameFile source destination = .ok fs') :
    ∃ location node there, fs.resolve .entry source = .ok (.found location node false)
      ∧ ((∃ old, fs.resolve .entry destination = .ok (.found there old false))
        ∨ fs.resolve .entry destination = .ok (.vacant there false))
      ∧ fs' = (fs.dropNode location).putNode there node := by
  rw [renameFile] at h
  cases hsource : fs.resolve .entry source with
  | error e =>
    rw [hsource] at h
    contradiction
  | ok target =>
    rw [hsource] at h
    cases hdestination : fs.resolve .entry destination with
    | error e =>
      rw [hdestination] at h
      contradiction
    | ok target' =>
      rw [hdestination] at h
      dsimp only [bind, Except.bind] at h
      -- what is moved is refused if a slash follows it, or if a directory would be replaced
      split at h
      case h_1 => contradiction
      case h_2 => contradiction
      case h_3 => contradiction
      case h_4 => contradiction
      case h_5 => contradiction
      case h_6 location node slash there old slash' hslash hslash' hdirectory =>
        cases h
        rw [eq_false_of_ne_true hslash, eq_false_of_ne_true hslash']
        exact ⟨location, node, there, rfl, .inl ⟨old, rfl⟩, rfl⟩
      case h_7 location node slash there slash' hslash hslash' =>
        cases h
        rw [eq_false_of_ne_true hslash, eq_false_of_ne_true hslash']
        exact ⟨location, node, there, rfl, .inr rfl, rfl⟩

/-- Nothing is moved over a directory. -/
theorem ne_directory_of_renameFile {source destination : String} {location : Location}
    {node : Node} {slash : Bool} (h : fs.renameFile source destination = .ok fs')
    (hfound : fs.resolve .entry destination = .ok (.found location node slash)) (mode : Nat) :
    node ≠ .directory mode := by
  rintro rfl
  rw [renameFile, hfound] at h
  cases hsource : fs.resolve .entry source with
  | error e =>
    rw [hsource] at h
    contradiction
  | ok target =>
    rw [hsource] at h
    dsimp only [bind, Except.bind] at h
    split at h
    case h_1 => contradiction
    case h_2 => contradiction
    case h_3 => contradiction
    case h_4 => contradiction
    case h_5 => contradiction
    case h_6 hdirectory heq =>
      cases heq
      exact absurd rfl (hdirectory mode)
    case h_7 heq => contradiction

/-! ## Operations at places -/

/-- Creating a file by the path of a place at which no link stands. -/
theorem createFile_pathOf (hdata : ∀ location id, fs.node? location = some (.file id)
      → id < fs.files.size) {location : Location} (hplace : InDirectory fs location)
    (hlink : ∀ goal, fs.node? location ≠ some (.link goal)) {id : FileId}
    (h : fs.createFile (pathOf location) = .ok (id, fs')) :
    (fs.node? location = some (.file id) ∨ fs.node? location = none ∧ id = fs.files.size)
      ∧ (∀ l, fs'.node? l = if l = location then some (.file id) else fs.node? l)
      ∧ id < fs'.files.size ∧ (fs'.data id).bytes = #[]
      ∧ ∀ j, j ≠ id → j < fs.files.size → fs'.data j = fs.data j := by
  rcases exists_of_createFile h with ⟨l, slash, hresolve, rfl⟩ | ⟨l, slash, hresolve, rfl, rfl⟩
  · have htarget := eq_targetAt_of_resolve hplace hresolve (.inr hlink)
    rw [targetAt] at htarget
    cases hnode : fs.node? location with
    | none =>
      rw [hnode] at htarget
      contradiction
    | some node =>
      rw [hnode] at htarget
      cases htarget
      have hid := hdata location id hnode
      refine ⟨.inl rfl, fun l => ?_, Nat.lt_of_lt_of_eq hid (size_modifyData id _).symm, ?_,
        fun j hj _ => ?_⟩
      · rw [node?_modifyData]
        split
        case isTrue heq => rw [heq, hnode]
        case isFalse => rfl
      · rw [data_modifyData hid, if_pos rfl]
      · rw [data_modifyData hid, if_neg hj]
  · have htarget := eq_targetAt_of_resolve hplace hresolve (.inr hlink)
    rw [targetAt] at htarget
    cases hnode : fs.node? location with
    | some node =>
      rw [hnode] at htarget
      contradiction
    | none =>
      rw [hnode] at htarget
      cases htarget
      -- the new file has the first number that is free
      have hfiles : ((fs.addData ⟨#[], newFileMode, .disk⟩).2.putNode location
          (.file fs.files.size)).files = fs.files.push ⟨#[], newFileMode, .disk⟩ := rfl
      refine ⟨.inr ⟨rfl, rfl⟩, fun l => node?_putNode hplace.ne_nil _ l, ?_, ?_, fun j _ hj => ?_⟩
      · rw [hfiles, Array.size_push]
        exact Nat.lt_succ_self _
      · rw [data, hfiles, Array.getD_eq_getD_getElem?, Array.getElem?_push_size]
        rfl
      · rw [data, data, hfiles, Array.getD_eq_getD_getElem?, Array.getD_eq_getD_getElem?,
          Array.getElem?_push_lt hj, Array.getElem?_eq_getElem hj]

/-- Moving what stands at a place to another, by the paths of both. -/
theorem node?_renameFile_pathOf {source destination : Location}
    (hsource : InDirectory fs source) (hdestination : InDirectory fs destination)
    (h : fs.renameFile (pathOf source) (pathOf destination) = .ok fs') :
    ∃ node, fs.node? source = some node ∧ fs'.current = fs.current ∧ fs'.files = fs.files
      ∧ ∀ l, fs'.node? l = if l = destination then some node
        else if l = source then none else fs.node? l := by
  obtain ⟨location, node, there, hfrom, hto, rfl⟩ := exists_of_renameFile h
  have hfrom := eq_targetAt_of_resolve hsource hfrom (.inl rfl)
  rw [targetAt] at hfrom
  -- whether something stands there or not, the path names the place
  have hthere : there = destination := by
    rcases hto with ⟨old, hto⟩ | hto <;>
    · have hto := eq_targetAt_of_resolve hdestination hto (.inl rfl)
      rw [targetAt] at hto
      split at hto <;> cases hto
      rfl
  split at hfrom
  · contradiction
  · cases hfrom
    refine ⟨node, by assumption, rfl, rfl, fun l => ?_⟩
    rw [hthere, node?_putNode hdestination.ne_nil, node?_dropNode hsource.ne_nil]

end Reline.FileSystem
