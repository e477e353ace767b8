/-
  Reline.Proofs.FileSystem.Frame

  What operations on files leave alone.

  Creating a file changes one place at most, and the data of one file; writing
  and giving permissions change the data of one file; removing and moving change
  the places that the paths name. None of them leaves a place with a file whose
  data is not there.
-/

import Reline.Proofs.FileSystem.Creation

namespace Reline.FileSystem

variable {fs fs' : FileSystem} {location : Location} {id : FileId}

/-! ## Places that stay as they are -/

/-- What stands at a place, and the data of a file there, are the same. -/
structure SameAt (fs fs' : FileSystem) (l : Location) : Prop where
  node : fs'.node? l = fs.node? l
  data : ∀ id, fs.node? l = some (.file id) → fs'.data id = fs.data id

theorem SameAt.refl (fs : FileSystem) (l : Location) : SameAt fs fs l := ⟨rfl, fun _ _ => rfl⟩

theorem SameAt.trans {fs'' : FileSystem} {l : Location} (h : SameAt fs fs' l)
    (h' : SameAt fs' fs'' l) : SameAt fs fs'' l where
  node := h'.node.trans h.node
  data := by
    intro id hnode
    have hnode' : fs'.node? l = some (.file id) := h.node.trans hnode
    exact (h'.data id hnode').trans (h.data id hnode)

theorem node?_dropNode_of_ne {l : Location} (hne : l ≠ location) :
    (fs.dropNode location).node? l = fs.node? l := by
  rw [node?, node?, dropNode]
  dsimp only
  rw [OrderedTable.lookup_filter_ne, if_neg hne]

theorem node?_putNode_of_ne {l : Location} (hne : l ≠ location) (node : Node) :
    (fs.putNode location node).node? l = fs.node? l := by
  rw [node?, node?, putNode]
  dsimp only
  rw [OrderedTable.lookup_cons_eq, if_neg hne, OrderedTable.lookup_filter_ne, if_neg hne]

/-! ## Files whose data is there -/

theorem wellFormed_dropNode (h : WellFormed fs) (location : Location) :
    WellFormed (fs.dropNode location) := by
  refine ⟨h.current, fun l id hnode => ?_⟩
  by_cases hl : l = location
  · -- where something was removed nothing stands, and the root is no file
    subst hl
    by_cases hroot : l = []
    · subst hroot
      cases hnode
    · rw [node?_dropNode hroot, if_pos rfl] at hnode
      contradiction
  · rw [node?_dropNode_of_ne hl] at hnode
    exact h.data l id hnode

/-- What is put somewhere else may be a file only if that file's data is there. -/
theorem wellFormed_putNode (h : WellFormed fs) (location : Location) {node : Node}
    (hnode : ∀ id, node = .file id → id < fs.files.size) :
    WellFormed (fs.putNode location node) := by
  refine ⟨h.current, fun l id hl => ?_⟩
  by_cases hplace : l = location
  · subst hplace
    by_cases hroot : l = []
    · subst hroot
      cases hl
    · rw [node?_putNode hroot, if_pos rfl] at hl
      exact hnode id (Option.some.inj hl)
  · rw [node?_putNode_of_ne hplace] at hl
    exact h.data l id hl

/-! ## The data of one file -/

/-- File systems that differ in the data of one file only. -/
structure Refilled (fs fs' : FileSystem) (id : FileId) : Prop where
  nodes : fs'.nodes = fs.nodes
  current : fs'.current = fs.current
  size : fs'.files.size = fs.files.size
  others : ∀ j, j ≠ id → fs'.data j = fs.data j

theorem Refilled.refl (fs : FileSystem) (id : FileId) : Refilled fs fs id :=
  ⟨rfl, rfl, rfl, fun _ _ => rfl⟩

theorem Refilled.trans {fs'' : FileSystem} (h : Refilled fs fs' id) (h' : Refilled fs' fs'' id) :
    Refilled fs fs'' id where
  nodes := h'.nodes.trans h.nodes
  current := h'.current.trans h.current
  size := h'.size.trans h.size
  others j hj := (h'.others j hj).trans (h.others j hj)

theorem Refilled.node?_eq (h : Refilled fs fs' id) (l : Location) : fs'.node? l = fs.node? l := by
  rw [node?, node?, h.nodes]

theorem Refilled.wellFormed (h : Refilled fs fs' id) (hfiles : WellFormed fs) : WellFormed fs' where
  current := by
    rw [h.current]
    exact hfiles.current
  data l id hnode := by
    rw [h.node?_eq] at hnode
    rw [h.size]
    exact hfiles.data l id hnode

theorem refilled_modifyData (fs : FileSystem) (id : FileId) (f : FileData → FileData) :
    Refilled fs (fs.modifyData id f) id where
  nodes := rfl
  current := rfl
  size := size_modifyData id f
  others j hj := by
    rw [data, data, modifyData, Array.getD_eq_getD_getElem?, Array.getD_eq_getD_getElem?,
      Array.getElem?_modify, if_neg (Ne.symm hj)]

theorem refilled_write {offset : Nat} {bytes : Bytes} (h : fs.write id offset bytes = .ok fs') :
    Refilled fs fs' id := by
  rw [write] at h
  split at h
  case h_1 =>
    cases h
    exact refilled_modifyData ..
  case h_2 =>
    cases h
    exact .refl ..
  case h_3 =>
    split at h
    · cases h
      exact .refl ..
    · contradiction

theorem Filled.of_refilled {built : FileSystem} (h : Filled fs fs' location id)
    (hbuilt : Refilled fs' built id) : Filled fs built location id where
  before := h.before
  after l := (hbuilt.node?_eq l).trans (h.after l)
  current := hbuilt.current.trans h.current

/-! ## Creating, removing, moving -/

/-- What creating a file by a path from the root does: a file stands at one place, where it stood or
nothing did, and the data of no other file changes. -/
structure Creates (fs fs' : FileSystem) (path : String) (location : Location) (id : FileId) :
    Prop where
  leads : (∃ slash, fs.resolve .create path = .ok (.found location (.file id) slash))
      ∧ fs.node? location = some (.file id)
    ∨ (∃ slash, fs.resolve .create path = .ok (.vacant location slash))
      ∧ fs.node? location = none ∧ location ≠ [] ∧ id = fs.files.size
  filled : Filled fs fs' location id
  present : id < fs'.files.size
  grows : fs.files.size ≤ fs'.files.size
  others : ∀ j, j ≠ id → j < fs.files.size → fs'.data j = fs.data j

/-- A file that is there is emptied. -/
theorem creates_of_found (hfiles : WellFormed fs) {path : String} {slash : Bool}
    (hresolve : fs.resolve .create path = .ok (.found location (.file id) slash))
    (hnode : fs.node? location = some (.file id)) :
    Creates fs (fs.modifyData id fun d => { d with bytes := #[] }) path location id := by
  have hsame := refilled_modifyData fs id fun d => { d with bytes := #[] }
  have hafter : ∀ l', (fs.modifyData id fun d => { d with bytes := #[] }).node? l'
      = if l' = location then some (.file id) else fs.node? l' := by
    intro l'
    rw [node?_modifyData]
    split
    case isTrue heq => rw [heq, hnode]
    case isFalse => rfl
  exact {
    leads := .inl ⟨⟨slash, hresolve⟩, hnode⟩
    filled := ⟨.inr hnode, hafter, rfl⟩
    present := Nat.lt_of_lt_of_eq (hfiles.data location id hnode) hsame.size.symm
    grows := Nat.le_of_eq hsame.size.symm
    others := fun j hj _ => hsame.others j hj }

/-- Where nothing stands, the new file has the first number that is free. -/
theorem creates_of_vacant {path : String} {slash : Bool}
    (hresolve : fs.resolve .create path = .ok (.vacant location slash))
    (hnone : fs.node? location = none) :
    Creates fs ((fs.addData ⟨#[], newFileMode, .disk⟩).2.putNode location (.file fs.files.size))
      path location fs.files.size := by
  have hne : location ≠ [] := by
    rintro rfl
    contradiction
  have hpush : ((fs.addData ⟨#[], newFileMode, .disk⟩).2.putNode location
      (.file fs.files.size)).files = fs.files.push ⟨#[], newFileMode, .disk⟩ := rfl
  exact {
    leads := .inr ⟨⟨slash, hresolve⟩, hnone, hne, rfl⟩
    filled := ⟨.inl hnone, fun l' => node?_putNode hne _ l', rfl⟩
    present := by
      rw [hpush, Array.size_push]
      exact Nat.lt_succ_self _
    grows := by
      rw [hpush, Array.size_push]
      exact Nat.le_succ _
    others := by
      intro j _ hj
      rw [data, data, hpush, Array.getD_eq_getD_getElem?, Array.getD_eq_getD_getElem?,
        Array.getElem?_push_lt hj, Array.getElem?_eq_getElem hj] }

theorem exists_creates_of_createFile (hfiles : WellFormed fs) {path : String}
    (habsolute : Path.isAbsolute path = true) (h : fs.createFile path = .ok (id, fs')) :
    ∃ location, Creates fs fs' path location id := by
  rcases exists_of_createFile h with ⟨l, slash, hresolve, rfl⟩ | ⟨l, slash, hresolve, rfl, rfl⟩
  · have hnode : fs.node? l = some (.file id) := by
      rcases (ends_of_resolve habsolute hresolve).found_cases with ⟨-, hroot⟩ | ⟨-, stands, -⟩
      · contradiction
      · exact stands
    exact ⟨l, creates_of_found hfiles hresolve hnode⟩
  · have hnone : fs.node? l = none := by
      cases ends_of_resolve habsolute hresolve with
      | vacant above isName stands => exact stands
    exact ⟨l, creates_of_vacant hresolve hnone⟩

theorem Creates.wellFormed {path : String} (h : Creates fs fs' path location id)
    (hfiles : WellFormed fs) : WellFormed fs' where
  current := by
    rw [h.filled.current]
    exact hfiles.current
  data l j hnode := by
    rcases h.filled.node?_before hnode with hsame | ⟨-, hfile, -⟩
    · exact Nat.lt_of_lt_of_le (hfiles.data l j hsame) h.grows
    · cases hfile
      exact h.present

/-- A path by which a file was created named a link, or the file, if it named anything. -/
theorem Creates.entry_cases {path : String} (h : Creates fs fs' path location id) {l : Location}
    {node : Node} {slash : Bool} (hentry : fs.resolve .entry path = .ok (.found l node slash)) :
    (∃ goal, node = .link goal) ∨ node = .file id := by
  rcases h.leads with ⟨⟨slash', hfound⟩, -⟩ | ⟨⟨slash', hvacant⟩, -⟩
  · rcases resolve_entry_of_create hfound with ⟨there, goal, slash'', hlink⟩ | hfile
    · cases hentry.symm.trans hlink
      exact .inl ⟨goal, rfl⟩
    · cases hentry.symm.trans hfile
      exact .inr rfl
  · rcases resolve_entry_of_create hvacant with ⟨there, goal, slash'', hlink⟩ | hnothing
    · cases hentry.symm.trans hlink
      exact .inl ⟨goal, rfl⟩
    · cases hentry.symm.trans hnothing

theorem Creates.ne_directory {path : String} (h : Creates fs fs' path location id) {l : Location}
    {node : Node} {slash : Bool} (hentry : fs.resolve .entry path = .ok (.found l node slash)) :
    ∀ mode, node ≠ .directory mode := by
  rintro mode rfl
  rcases h.entry_cases hentry with ⟨goal, hlink⟩ | hfile <;> contradiction

/-- While a file that was created is filled, its path leads to it. -/
theorem Creates.inspect {filled : FileSystem} {path : String}
    (h : Creates fs fs' path location id) (hfilled : Filled fs filled location id) :
    filled.inspect path = .ok (location, .file id) := by
  refine inspect_eq_ok_iff.2 ?_
  rcases h.leads with ⟨⟨slash, hfound⟩, -⟩ | ⟨⟨slash, hvacant⟩, -⟩
  · exact hfilled.resolve_inspect (.inl hfound)
  · exact hfilled.resolve_inspect (.inr hvacant)

/-- What removing a file does. -/
theorem exists_of_removeFile {path : String} (h : fs.removeFile path = .ok fs') :
    ∃ location node, fs.resolve .entry path = .ok (.found location node false)
      ∧ (∀ mode, node ≠ .directory mode) ∧ fs' = fs.dropNode location := by
  rw [removeFile] at h
  cases hresolve : fs.resolve .entry path with
  | error e =>
    rw [hresolve] at h
    contradiction
  | ok target =>
    rw [hresolve] at h
    dsimp only [bind, Except.bind] at h
    split at h
    case h_1 => contradiction
    case h_2 l node slash hnode =>
      split at h
      case isTrue => contradiction
      case isFalse hslash =>
        cases h
        rw [eq_false_of_ne_true hslash]
        exact ⟨l, node, rfl, hnode, rfl⟩
    case h_3 => contradiction

/-- The file that a path names can be removed. -/
theorem removeFile_of_file {path : String}
    (h : fs.resolve .entry path = .ok (.found location (.file id) false)) :
    fs.removeFile path = .ok (fs.dropNode location) := by
  rw [removeFile, h]
  rfl

end Reline.FileSystem
