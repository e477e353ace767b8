/-
  Reline.Proofs.FileSystem.Alike

  File systems that are the same at some places but for the numbers of files.

  Who creates a file gets the first number that is free, so the same work done in
  two file systems numbers the same files differently. No operation by paths
  depends on numbers: in file systems that are alike on the ways of its paths it
  gives the same answer, and leaves file systems that are alike again.
-/

import Reline.Proofs.FileSystem.Growth

namespace Reline.FileSystem

variable {fs fs' : FileSystem} {location : Location} {places : List Location} {path : String}
  {i j : FileId}

/-! ## The same but for numbers -/

/-- Whether the same stands at a place in two file systems. `pair` says which files are the same. -/
inductive Twin (pair : FileId → FileId → Prop) : Option Node → Option Node → Prop where
  | nothing : Twin pair none none
  | directory (mode : Nat) : Twin pair (some (.directory mode)) (some (.directory mode))
  | link (target : String) : Twin pair (some (.link target)) (some (.link target))
  | file {i j : FileId} (paired : pair i j) : Twin pair (some (.file i)) (some (.file j))

/-- File systems in which the same stands at each of some places. Files that are paired have the
same data, and no file is paired with two. -/
structure Alike (pair : FileId → FileId → Prop) (places : List Location) (fs fs' : FileSystem) :
    Prop where
  current : fs'.current = fs.current
  node : ∀ l ∈ places, Twin pair (fs.node? l) (fs'.node? l)
  data : ∀ i j, pair i j → fs'.data j = fs.data i
  present : ∀ i j, pair i j → i < fs.files.size ∧ j < fs'.files.size
  unique : ∀ i j i' j', pair i j → pair i' j' → (i' = i ↔ j' = j)

/-- Whether a path goes over some places only. -/
def StaysIn (fs : FileSystem) (places : List Location) (path : String) : Prop :=
  ∀ l ∈ fs.way path, l ∈ places

variable {pair : FileId → FileId → Prop}

theorem Twin.mono {pair' : FileId → FileId → Prop} {node node' : Option Node}
    (h : Twin pair node node') (hpair : ∀ i j, pair i j → pair' i j) : Twin pair' node node' := by
  cases h with
  | nothing => exact .nothing
  | directory mode => exact .directory mode
  | link target => exact .link target
  | file paired => exact .file (hpair _ _ paired)

theorem Alike.content?_eq (h : Alike pair places fs fs') (hl : location ∈ places) :
    fs'.content? location = fs.content? location := by
  have hnode := h.node location hl
  rw [content?, content?]
  generalize fs.node? location = node at hnode ⊢
  generalize fs'.node? location = node' at hnode ⊢
  cases hnode with
  | nothing => rfl
  | directory mode => rfl
  | link target => rfl
  | file paired => rw [Option.map_some, Option.map_some, content, content, h.data _ _ paired]

/-- File systems with the same data at the same numbers are alike where the same stands. -/
theorem alike_of_sameAt {fs₀ : FileSystem} (hfiles : WellFormed fs) (hfiles' : WellFormed fs')
    (hcurrent : fs.current = fs₀.current) (hcurrent' : fs'.current = fs₀.current)
    (h : ∀ l ∈ places, SameAt fs₀ fs l) (h' : ∀ l ∈ places, SameAt fs₀ fs' l) :
    Alike (fun i j => j = i ∧ ∃ l ∈ places, fs₀.node? l = some (.file i)) places fs fs' where
  current := hcurrent'.trans hcurrent.symm
  node l hl := by
    rw [(h l hl).node, (h' l hl).node]
    cases hnode : fs₀.node? l with
    | none => exact .nothing
    | some node =>
      cases node with
      | directory mode => exact .directory mode
      | link target => exact .link target
      | file id => exact .file ⟨rfl, l, hl, hnode⟩
  data := by
    rintro i j ⟨rfl, l, hl, hnode⟩
    rw [(h l hl).data _ hnode, (h' l hl).data _ hnode]
  present := by
    rintro i j ⟨rfl, l, hl, hnode⟩
    exact ⟨hfiles.data l _ ((h l hl).node.trans hnode),
      hfiles'.data l _ ((h' l hl).node.trans hnode)⟩
  unique := by
    rintro i j i' j' ⟨rfl, -⟩ ⟨rfl, -⟩
    exact Iff.rfl

theorem Ended.staysIn (h : Ended fs fs') (hcurrent : fs'.current = fs.current)
    (hpath : fs.StaysIn places path) : fs'.StaysIn places path :=
  fun l hl => hpath l (h.way_subset hcurrent hl)

/-! ## Following paths -/

theorem Alike.look_eq (h : Alike pair places fs fs') (hpath : fs.StaysIn places path)
    (purpose : Purpose) : fs'.look purpose path = fs.look purpose path :=
  look_congr purpose (fun l hl => h.content?_eq (hpath l hl)) h.current

/-- What a path leads to in two file systems. -/
inductive Leading (pair : FileId → FileId → Prop) (places : List Location) :
    Except IoError Target → Except IoError Target → Prop where
  | error (e : IoError) : Leading pair places (.error e) (.error e)
  | vacant {l : Location} (slash : Bool) (mem : l ∈ places) :
    Leading pair places (.ok (.vacant l slash)) (.ok (.vacant l slash))
  | found {l : Location} {node node' : Node} (slash : Bool) (mem : l ∈ places)
    (twin : Twin pair (some node) (some node')) :
    Leading pair places (.ok (.found l node slash)) (.ok (.found l node' slash))

/-- A path leads to the same in file systems that are alike on its way. -/
theorem Alike.leading (h : Alike pair places fs fs') (hpath : fs.StaysIn places path)
    (purpose : Purpose) :
    Leading pair places (fs.resolve purpose path) (fs'.resolve purpose path) := by
  have hlook := h.look_eq hpath purpose
  cases hresolve : fs.resolve purpose path with
  | error e =>
    rw [look_eq_error_iff.2 hresolve] at hlook
    rw [look_eq_error_iff.1 hlook]
    exact .error e
  | ok target =>
    cases target with
    | vacant l slash =>
      rw [look_eq_vacant_iff.2 hresolve] at hlook
      rw [look_eq_vacant_iff.1 hlook]
      exact .vacant slash (hpath l (mem_way_of_vacant hresolve).1)
    | found l node slash =>
      rw [look_eq_found_iff.2 ⟨node, hresolve, rfl⟩] at hlook
      obtain ⟨node', hresolve', -⟩ := look_eq_found_iff.1 hlook
      obtain ⟨hway, hnode⟩ := mem_way_of_found hresolve
      have hl := hpath l hway
      have htwin := h.node l hl
      rw [hnode, (mem_way_of_found hresolve').2] at htwin
      rw [hresolve']
      exact .found slash hl htwin

/-! ## Changing places and data -/

theorem node?_putNode_eq (location : Location) (node : Node) (l : Location) :
    (fs.putNode location node).node? l
      = if l = location ∧ l ≠ [] then some node else fs.node? l := by
  by_cases hl : l = location
  · subst hl
    by_cases hroot : l = []
    · rw [if_neg fun h => h.2 hroot, hroot]
      rfl
    · rw [node?_putNode hroot, if_pos rfl, if_pos ⟨rfl, hroot⟩]
  · rw [node?_putNode_of_ne hl, if_neg fun h => hl h.1]

theorem node?_dropNode_eq (location l : Location) :
    (fs.dropNode location).node? l = if l = location ∧ l ≠ [] then none else fs.node? l := by
  by_cases hl : l = location
  · subst hl
    by_cases hroot : l = []
    · rw [if_neg fun h => h.2 hroot, hroot]
      rfl
    · rw [node?_dropNode hroot, if_pos rfl, if_pos ⟨rfl, hroot⟩]
  · rw [node?_dropNode_of_ne hl, if_neg fun h => hl h.1]

theorem Alike.putNode (h : Alike pair places fs fs') {node node' : Node}
    (htwin : Twin pair (some node) (some node')) (location : Location) :
    Alike pair places (fs.putNode location node) (fs'.putNode location node') :=
  { h with
    node := by
      intro l hl
      rw [node?_putNode_eq, node?_putNode_eq]
      split
      · exact htwin
      · exact h.node l hl }

theorem Alike.dropNode (h : Alike pair places fs fs') (location : Location) :
    Alike pair places (fs.dropNode location) (fs'.dropNode location) :=
  { h with
    node := by
      intro l hl
      rw [node?_dropNode_eq, node?_dropNode_eq]
      split
      · exact .nothing
      · exact h.node l hl }

theorem Alike.modifyData (h : Alike pair places fs fs') (hpair : pair i j)
    (f : FileData → FileData) :
    Alike pair places (fs.modifyData i f) (fs'.modifyData j f) where
  current := h.current
  node := h.node
  data a b hab := by
    obtain ⟨hi, hj⟩ := h.present i j hpair
    have hsame := h.unique i j a b hpair hab
    rw [data_modifyData hi, data_modifyData hj]
    by_cases ha : a = i
    · rw [if_pos ha, if_pos (hsame.1 ha), h.data i j hpair]
    · rw [if_neg ha, if_neg (ha ∘ hsame.2), h.data a b hab]
  present a b hab := by
    rw [size_modifyData, size_modifyData]
    exact h.present a b hab
  unique := h.unique

/-- A new file at a place is the same in both. -/
theorem Alike.grow (h : Alike pair places fs fs') (location : Location) (data : FileData) :
    Alike (fun a b => pair a b ∨ a = fs.files.size ∧ b = fs'.files.size) places
      (fs.grow location data) (fs'.grow location data) where
  current := h.current
  node := by
    intro l hl
    rw [FileSystem.grow, FileSystem.grow, node?_putNode_eq, node?_putNode_eq]
    split
    · exact .file (.inr ⟨rfl, rfl⟩)
    · exact (h.node l hl).mono fun _ _ => .inl
  data := by
    rintro a b (hab | ⟨rfl, rfl⟩)
    · obtain ⟨ha, hb⟩ := h.present a b hab
      rw [data_grow, data_grow, if_neg (Nat.ne_of_lt ha), if_neg (Nat.ne_of_lt hb), h.data a b hab]
    · rw [data_grow, data_grow, if_pos rfl, if_pos rfl]
  present := by
    rw [size_grow, size_grow]
    rintro a b (hab | ⟨rfl, rfl⟩)
    · exact (h.present a b hab).imp Nat.lt_succ_of_lt Nat.lt_succ_of_lt
    · exact ⟨Nat.lt_succ_self _, Nat.lt_succ_self _⟩
  unique := by
    -- an old file has a number below the new ones
    have hold {a b : FileId} (hab : pair a b) := h.present a b hab
    rintro a b a' b' (hab | ⟨rfl, rfl⟩) (hab' | ⟨rfl, rfl⟩)
    · exact h.unique a b a' b' hab hab'
    · obtain ⟨ha, hb⟩ := hold hab
      exact iff_of_false (Nat.ne_of_gt ha) (Nat.ne_of_gt hb)
    · obtain ⟨ha, hb⟩ := hold hab'
      exact iff_of_false (Nat.ne_of_lt ha) (Nat.ne_of_lt hb)
    · exact ⟨fun _ => rfl, fun _ => rfl⟩

/-! ## Operations that lead no path on -/

theorem Refilled.ended {id : FileId} (h : Refilled fs fs' id) : Ended fs fs' :=
  ended_of_nodes fun l => .inl (h.node?_eq l)

theorem ended_dropNode (fs : FileSystem) (location : Location) :
    Ended fs (fs.dropNode location) := by
  refine ended_of_nodes fun l => ?_
  rw [node?_dropNode_eq]
  split
  · exact .inr (.inl rfl)
  · exact .inl rfl

/-- A file leads no path on, wherever it is put. -/
theorem ended_putNode_file (fs : FileSystem) (location : Location) (id : FileId) :
    Ended fs (fs.putNode location (.file id)) := by
  refine ended_of_nodes fun l => ?_
  rw [node?_putNode_eq]
  split
  · exact .inr (.inr ⟨id, rfl⟩)
  · exact .inl rfl

theorem ended_of_createFile {id : FileId} (h : fs.createFile path = .ok (id, fs')) :
    Ended fs fs' ∧ fs'.current = fs.current := by
  rcases exists_of_createFile h with ⟨l, slash, -, rfl⟩ | ⟨l, slash, -, rfl, rfl⟩
  · exact ⟨(refilled_modifyData ..).ended, rfl⟩
  · have hput := ended_putNode_file (fs.addData ⟨#[], newFileMode, .disk⟩).2 l fs.files.size
    exact ⟨⟨hput.directory, hput.link⟩, rfl⟩

theorem ended_of_setMode {mode : Nat} (h : fs.setMode path mode = .ok fs') :
    Ended fs fs' ∧ fs'.current = fs.current := by
  rcases exists_of_setMode h with ⟨l, id, -, rfl⟩ | ⟨l, old, hinspect, rfl⟩
  · exact ⟨(refilled_modifyData ..).ended, rfl⟩
  · obtain ⟨slash, hresolve⟩ := inspect_eq_ok_iff.1 hinspect
    have hstood := (mem_way_of_found hresolve).2
    refine ⟨⟨fun l' mode' hnode => ?_, fun l' goal hnode => ?_⟩, rfl⟩
    · rw [node?_putNode_eq] at hnode
      split at hnode
      case isTrue heq => exact ⟨old, heq.1 ▸ hstood⟩
      case isFalse => exact ⟨mode', hnode⟩
    · rw [node?_putNode_eq] at hnode
      split at hnode
      case isTrue => cases hnode
      case isFalse => exact hnode

/-! ## Operations -/

/-- What an operation makes of two file systems. -/
inductive Changing {ε : Type} (pair : FileId → FileId → Prop) (places : List Location) :
    Except ε FileSystem → Except ε FileSystem → Prop where
  | error (e : ε) : Changing pair places (.error e) (.error e)
  | ok {fs fs' : FileSystem} (alike : Alike pair places fs fs') :
    Changing pair places (.ok fs) (.ok fs')

theorem Alike.write (h : Alike pair places fs fs') (hpair : pair i j) (offset : Nat)
    (bytes : Bytes) :
    Changing pair places (fs.write i offset bytes) (fs'.write j offset bytes) := by
  rw [FileSystem.write, FileSystem.write, h.data i j hpair]
  split
  · exact .ok (h.modifyData hpair _)
  · exact .ok h
  · split
    · exact .ok h
    · exact .error _

theorem Alike.sync_eq (h : Alike pair places fs fs') (hpair : pair i j) :
    fs'.sync j = fs.sync i := by
  rw [sync, sync, h.data i j hpair]

theorem Alike.mode_eq (h : Alike pair places fs fs') (hpath : fs.StaysIn places path) :
    fs'.mode path = fs.mode path := by
  rw [mode_eq_look, mode_eq_look, h.look_eq hpath]

theorem inspect_eq_resolve (fs : FileSystem) (path : String) :
    fs.inspect path = match fs.resolve .inspect path with
      | .ok (.found location node _) => .ok (location, node)
      | .ok (.vacant ..) => .error (.os .notFound)
      | .error e => .error e := by
  rw [inspect]
  cases fs.resolve .inspect path with
  | error e => rfl
  | ok target => cases target <;> rfl

theorem Alike.setMode (h : Alike pair places fs fs') (hpath : fs.StaysIn places path)
    (mode : Nat) : Changing pair places (fs.setMode path mode) (fs'.setMode path mode) := by
  have hleading := h.leading hpath .inspect
  rw [FileSystem.setMode, FileSystem.setMode, inspect_eq_resolve, inspect_eq_resolve]
  generalize fs.resolve .inspect path = target at hleading ⊢
  generalize fs'.resolve .inspect path = target' at hleading ⊢
  cases hleading with
  | error e => exact .error e
  | vacant slash mem => exact .error _
  | found slash mem twin =>
    cases twin with
    | directory old => exact .ok (h.putNode (.directory mode) _)
    | link goal => exact .error _
    | file paired => exact .ok (h.modifyData paired _)

theorem Alike.removeFile (h : Alike pair places fs fs') (hpath : fs.StaysIn places path) :
    Changing pair places (fs.removeFile path) (fs'.removeFile path) := by
  have hleading := h.leading hpath .entry
  rw [FileSystem.removeFile, FileSystem.removeFile]
  generalize fs.resolve .entry path = target at hleading ⊢
  generalize fs'.resolve .entry path = target' at hleading ⊢
  cases hleading with
  | error e => exact .error e
  | vacant slash mem => exact .error _
  | found slash mem twin =>
    cases twin with
    | directory mode => exact .error _
    | link goal =>
      cases slash with
      | true => exact .error _
      | false => exact .ok (h.dropNode _)
    | file paired =>
      cases slash with
      | true => exact .error _
      | false => exact .ok (h.dropNode _)

theorem Alike.renameFile (h : Alike pair places fs fs') {source destination : String}
    (hsource : fs.StaysIn places source) (hdestination : fs.StaysIn places destination) :
    Changing pair places (fs.renameFile source destination)
      (fs'.renameFile source destination) := by
  have hfrom := h.leading hsource .entry
  have hto := h.leading hdestination .entry
  rw [FileSystem.renameFile, FileSystem.renameFile]
  generalize fs.resolve .entry source = from₁ at hfrom ⊢
  generalize fs'.resolve .entry source = from₂ at hfrom ⊢
  generalize fs.resolve .entry destination = to₁ at hto ⊢
  generalize fs'.resolve .entry destination = to₂ at hto ⊢
  have hmoved {node node' : Node} (htwin : Twin pair (some node) (some node'))
      (l there : Location) : @Changing IoError pair places
        (.ok ((fs.dropNode l).putNode there node)) (.ok ((fs'.dropNode l).putNode there node')) :=
    .ok ((h.dropNode l).putNode htwin there)
  cases hfrom with
  | error e => exact .error e
  | vacant slash mem => cases hto <;> exact .error _
  | found slash mem twin =>
    cases hto with
    | error e => exact .error e
    | vacant slash' mem' =>
      cases slash <;> cases slash' <;> first | exact .error _ | exact hmoved twin _ _
    | found slash' mem' twin' =>
      -- what is moved over is refused if it is a directory, and it is one in both or in neither
      cases slash <;> cases slash' <;> cases twin' <;>
        first | exact .error _ | exact hmoved twin _ _

/-- What creating a file makes of two file systems: files that were the same still are, and the new
ones are. -/
inductive Creating (pair : FileId → FileId → Prop) (places : List Location) :
    Except IoError (FileId × FileSystem) → Except IoError (FileId × FileSystem) → Prop where
  | error (e : IoError) : Creating pair places (.error e) (.error e)
  | ok {i j : FileId} {created created' : FileSystem} {pair' : FileId → FileId → Prop}
    (paired : pair' i j) (grows : ∀ a b, pair a b → pair' a b)
    (alike : Alike pair' places created created') :
    Creating pair places (.ok (i, created)) (.ok (j, created'))

theorem Alike.createFile (h : Alike pair places fs fs') (hpath : fs.StaysIn places path) :
    Creating pair places (fs.createFile path) (fs'.createFile path) := by
  have hleading := h.leading hpath .create
  rw [FileSystem.createFile, FileSystem.createFile]
  generalize fs.resolve .create path = target at hleading ⊢
  generalize fs'.resolve .create path = target' at hleading ⊢
  cases hleading with
  | error e => exact .error e
  | found slash mem twin =>
    cases twin with
    | directory mode => exact .error _
    | link goal => exact .error _
    | file paired =>
      exact .ok paired (fun _ _ => id) (h.modifyData paired _)
  | vacant slash mem => exact .ok (.inr ⟨rfl, rfl⟩) (fun _ _ => .inl) (h.grow _ _)

end Reline.FileSystem
