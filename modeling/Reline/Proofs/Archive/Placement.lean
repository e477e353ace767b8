/-
  Reline.Proofs.Archive.Placement

  Where the archive that was built anew is found, and that nothing is found
  beside it.

  The archive's path and the one beside it differ in their last names only, so
  that they lead into one directory. A link that stands at the archive's place is
  replaced, and the path leads to the new file unless it went over that link
  before its end.

  Main statements: `Becomes.resolve_beside`, `Becomes.openFile`.
-/

import Reline.Proofs.Archive.Flush
import Reline.Proofs.Archive.Outcome
import Reline.Proofs.FileSystem.Relinking

namespace Reline

namespace FileSystem

variable {fs fs' : FileSystem} {purpose : Purpose}

/-! ## The directory of a last name -/

section Enters

variable {links steps links' steps' links'' steps'' : Nat} {here dir dir' : Location}
  {front : List String} {last : String} {target : Target} {id : FileId}

/-- Where nothing new leads on, a directory that is entered was entered before. -/
theorem Enters.of_ended (hended : Ended fs fs')
    (h : Enters fs' links steps here front links' steps' dir) :
    Enters fs links steps here front links' steps' dir := by
  induction h with
  | here => exact .here
  | stay neutral next ih => exact .stay neutral ih
  | up next ih => exact .up ih
  | down entry short stands next ih =>
    obtain ⟨mode, stood⟩ := hended.directory _ _ stands
    exact .down entry short stood ih
  | through entry short stands next ih =>
    exact .through entry short (hended.link _ _ stands) ih

theorem Enters.unique (h : Enters fs links steps here front links' steps' dir)
    (h' : Enters fs links steps here front links'' steps'' dir') :
    links'' = links' ∧ steps'' = steps' ∧ dir' = dir := by
  -- what the segment is, and what stands there, decides the step
  induction h with
  | here =>
    cases h'
    exact ⟨rfl, rfl, rfl⟩
  | stay neutral next ih =>
    cases h' with
    | stay neutral' next' => exact ih next'
    | up next' => exact absurd neutral (by decide)
    | down entry' short' stands' next' => exact absurd neutral (by rw [entry'.notNeutral]; nofun)
    | through entry' short' stands' next' => exact absurd neutral (by rw [entry'.notNeutral]; nofun)
  | up next ih =>
    cases h' with
    | stay neutral' next' => exact absurd neutral' (by decide)
    | up next' => exact ih next'
    | down entry' short' stands' next' => exact absurd rfl entry'.notAbove
    | through entry' short' stands' next' => exact absurd rfl entry'.notAbove
  | down entry short stands next ih =>
    cases h' with
    | stay neutral' next' => exact absurd neutral' (by rw [entry.notNeutral]; nofun)
    | up next' => exact absurd rfl entry.notAbove
    | down entry' short' stands' next' => exact ih next'
    | through entry' short' stands' next' => cases stands.symm.trans stands'
  | through entry short stands next ih =>
    cases h' with
    | stay neutral' next' => exact absurd neutral' (by rw [entry.notNeutral]; nofun)
    | up next' => exact absurd rfl entry.notAbove
    | down entry' short' stands' next' => cases stands.symm.trans stands'
    | through entry' short' stands' next' =>
      cases stands.symm.trans stands'
      exact ih next'

/-- A name that can be meant itself leads to a file that stands under it later. -/
theorem Leads.inspect_file (h : Leads fs .entry links steps dir [last] target)
    (isName : IsName last) (hnode : fs'.node? (dir ++ [last]) = some (.file id)) :
    Leads fs' .inspect links steps dir [last] (.found (dir ++ [last]) (.file id) false) := by
  have hfile {links steps : Nat} (hlooked : IsLookedUp .entry last []) :
      Leads fs' .inspect links (steps + 1) dir [last] (.found (dir ++ [last]) (.file id) false) :=
    .file (hlooked.of_ne_create _ nofun) hnode rfl
  cases h with
  | stay neutral next => exact absurd neutral (by rw [isName.notNeutral]; nofun)
  | up next => exact absurd rfl isName.notAbove
  | vacant lookedUp stands final => exact hfile lookedUp
  | directory lookedUp stands final => exact hfile lookedUp
  | down lookedUp stands final next => exact hfile lookedUp
  | file lookedUp stands slash => exact hfile lookedUp
  | link lookedUp stands itself => exact hfile lookedUp
  | through lookedUp stands itself next => exact hfile lookedUp

end Enters

/-- The root is no vacant place. -/
theorem ne_nil_of_vacant {path : String} (habsolute : Path.isAbsolute path = true)
    {l : Location} {slash : Bool} (h : fs.resolve purpose path = .ok (.vacant l slash)) :
    l ≠ [] := by
  cases ends_of_resolve habsolute h with
  | vacant above isName stands => exact (InDirectory.mk above isName).ne_nil

/-- Whether a path from the root ends in a name of a directory. -/
structure LiesIn (fs : FileSystem) (path : String) (dir : Location) (last : String) : Prop where
  isName : IsName last
  enters : ∃ front links steps, Path.segments path = front ++ [last]
    ∧ Enters fs linkLimit stepLimit [] front links steps dir

section LiesIn

variable {path last : String} {dir dir' there : Location} {target : Target} {id : FileId}

theorem liesIn_of_resolve (habsolute : Path.isAbsolute path = true) {front : List String}
    (hsegments : Path.segments path = front ++ [last]) (isName : IsName last)
    (hresolve : fs.resolve purpose path = .ok target) : ∃ dir, LiesIn fs path dir last := by
  obtain ⟨-, -, -, hleads⟩ := resolve_eq_ok_iff.1 hresolve
  rw [if_pos habsolute, hsegments] at hleads
  obtain ⟨links, steps, dir, henters⟩ := hleads.enters isName.isEntry
  exact ⟨dir, isName, front, links, steps, hsegments, henters⟩

theorem LiesIn.of_ended (hended : Ended fs fs') (h : LiesIn fs' path dir last) :
    LiesIn fs path dir last := by
  obtain ⟨isName, front, links, steps, hsegments, henters⟩ := h
  exact ⟨isName, front, links, steps, hsegments, henters.of_ended hended⟩

theorem LiesIn.dir_eq (h : LiesIn fs path dir last) (h' : LiesIn fs path dir' last) :
    dir' = dir := by
  obtain ⟨-, front, links, steps, hsegments, henters⟩ := h
  obtain ⟨-, front', links', steps', hsegments', henters'⟩ := h'
  obtain rfl := List.append_inj_left' (hsegments.symm.trans hsegments') rfl
  exact (henters.unique henters').2.2

/-- The path names what stands in the directory under the name. -/
theorem LiesIn.eq_targetAt (h : LiesIn fs path dir last) (habsolute : Path.isAbsolute path = true)
    (hresolve : fs.resolve .entry path = .ok target) : target = fs.targetAt (dir ++ [last]) := by
  obtain ⟨isName, front, links, steps, hsegments, henters⟩ := h
  obtain ⟨-, -, -, hleads⟩ := resolve_eq_ok_iff.1 hresolve
  rw [if_pos habsolute, hsegments] at hleads
  exact henters.eq_of_follow isName hleads

/-- A path to whose end something can be moved ends in a name of a directory. -/
theorem exists_liesIn_of_destination (habsolute : Path.isAbsolute path = true)
    (h : (fs.look .entry path).bind Sight.destination = .ok there) :
    ∃ dir last, LiesIn fs path dir last ∧ there = dir ++ [last]
      ∧ (∃ target, fs.resolve .entry path = .ok target)
      ∧ ∀ mode, fs.node? there ≠ some (.directory mode) := by
  obtain ⟨shown, hlook, hdestination⟩ := bind_eq_ok_iff.1 h
  obtain ⟨target, hresolve, rfl⟩ := look_eq_ok_iff.1 hlook
  have htarget : (∃ node, target = .found there node false ∧ ∀ mode, node ≠ .directory mode)
      ∨ target = .vacant there false := by
    cases target with
    | vacant l slash =>
      cases slash <;> cases hdestination
      exact .inr rfl
    | found l node slash =>
      cases slash <;> cases node <;> cases hdestination <;> exact .inl ⟨_, rfl, nofun⟩
  obtain ⟨front, last, hsegments, isName⟩ := exists_concat_of_resolve habsolute hresolve htarget
  obtain ⟨dir, hlies⟩ := liesIn_of_resolve habsolute hsegments isName hresolve
  have heq := hlies.eq_targetAt habsolute hresolve
  rw [targetAt] at heq
  refine ⟨dir, last, hlies, ?_, ⟨target, hresolve⟩, fun mode hmode => ?_⟩
  · rcases htarget with ⟨node, rfl, -⟩ | rfl <;> split at heq <;> cases heq <;> rfl
  · rcases htarget with ⟨node, rfl, hnode⟩ | rfl
    · have hstands := (mem_way_of_found hresolve).2
      exact hnode mode (Option.some.inj (hstands.symm.trans hmode))
    · cases ((mem_way_of_vacant hresolve).2).symm.trans hmode

/-- The path leads to a file that stands in the directory under the name. -/
theorem LiesIn.eq_found (h : LiesIn fs path dir last) (habsolute : Path.isAbsolute path = true)
    (hnode : fs.node? (dir ++ [last]) = some (.file id))
    (hresolve : fs.resolve .inspect path = .ok target) :
    target = .found (dir ++ [last]) (.file id) false := by
  obtain ⟨isName, front, links, steps, hsegments, henters⟩ := h
  obtain ⟨-, -, -, hleads⟩ := resolve_eq_ok_iff.1 hresolve
  rw [if_pos habsolute, hsegments] at hleads
  have hfollow := follow_eq_ok_iff.2 hleads
  rw [henters.follow_eq isName.isEntry] at hfollow
  cases follow_eq_ok_iff.1 hfollow with
  | stay neutral next => exact absurd neutral (by rw [isName.notNeutral]; nofun)
  | up next => exact absurd rfl isName.notAbove
  | vacant lookedUp stands final => cases hnode.symm.trans stands
  | directory lookedUp stands final => cases hnode.symm.trans stands
  | down lookedUp stands final next => cases hnode.symm.trans stands
  | file lookedUp stands slash =>
    cases hnode.symm.trans stands
    rfl
  | link lookedUp stands itself => cases hnode.symm.trans stands
  | through lookedUp stands itself next => cases hnode.symm.trans stands

/-- If what led on still does, the path leads to a file that stands under its name later. -/
theorem LiesIn.resolve_file (h : LiesIn fs path dir last) (habsolute : Path.isAbsolute path = true)
    (hresolve : fs.resolve .entry path = .ok target) (hended : Ended fs' fs)
    (hnode : fs'.node? (dir ++ [last]) = some (.file id)) :
    fs'.resolve .inspect path = .ok (.found (dir ++ [last]) (.file id) false) := by
  obtain ⟨isName, front, links, steps, hsegments, henters⟩ := h
  obtain ⟨hnul, hempty, hshort, hleads⟩ := resolve_eq_ok_iff.1 hresolve
  refine resolve_eq_ok_iff.2 ⟨hnul, hempty, hshort, ?_⟩
  rw [if_pos habsolute, hsegments] at hleads ⊢
  -- both go on from the directory with the last name alone
  have hfollow := follow_eq_ok_iff.2 hleads
  rw [henters.follow_eq isName.isEntry] at hfollow
  have hfile := (follow_eq_ok_iff.1 hfollow).inspect_file isName hnode
  apply follow_eq_ok_iff.1
  rw [(henters.of_ended hended).follow_eq isName.isEntry]
  exact follow_eq_ok_iff.2 hfile

end LiesIn

end FileSystem

namespace Archive

open FileSystem

variable {fs fs' : FileSystem} {source : Source} {staged : OrderedTable String Bytes}
  {path last : String} {dir : Location}

/-! ## The path beside an archive -/

/-- The path beside an archive ends in another name of the same directory. -/
theorem liesIn_temporaryPath (h : LiesIn fs path dir last) :
    LiesIn fs (Handle.temporaryPath path) dir (Handle.temporaryPath last) := by
  obtain ⟨isName, front, links, steps, hsegments, henters⟩ := h
  exact ⟨Handle.isName_temporaryPath isName, front, links, steps,
    Path.segments_append hsegments (by decide), henters⟩

theorem temporaryPath_ne (path : String) : Handle.temporaryPath path ≠ path := by
  intro heq
  have hlength := congrArg (fun text => text.toList.length) heq
  simp [Handle.temporaryPath] at hlength

/-! ## What is placed -/

/-- What is known of a file that a flush places: the name under which it is placed, that nothing
stood beside it, and its data. -/
structure Placing (fs : FileSystem) (source : Source) (staged : OrderedTable String Bytes)
    (path : String) (placed : Placed) (dir : Location) (last : String) : Prop where
  lies : LiesIn fs path dir last
  there : placed.1 = dir ++ [last]
  vacant : fs.node? (dir ++ [Handle.temporaryPath last]) = none
  directory : ∀ mode, fs.node? placed.1 ≠ some (.directory mode)
  resolves : ∃ target, fs.resolve .entry path = .ok target
  rebuilt : Handle.rebuilt (source.bytes fs) source.directory staged = .ok placed.2.bytes.toList
  medium : placed.2.medium = .disk
  mode : ∀ mode, fs.mode path = .ok mode → placed.2.mode = mode

/-- Permissions that a path shows are shown while a new file is there. -/
theorem mode_grow (hfiles : WellFormed fs) (habsolute : Path.isAbsolute path = true)
    {beside : Location} (hne : beside ≠ []) (hvacant : fs.node? beside = none) (data : FileData)
    {mode : Nat} (h : fs.mode path = .ok mode) : (fs.grow beside data).mode path = .ok mode := by
  rw [FileSystem.mode] at h ⊢
  obtain ⟨⟨l, node⟩, hinspect, hmode⟩ := bind_eq_ok_iff.1 h
  obtain ⟨slash, hresolve⟩ := inspect_eq_ok_iff.1 hinspect
  obtain ⟨hnul, hempty, hshort, hleads⟩ := resolve_eq_ok_iff.1 hresolve
  have hstill : (fs.grow beside data).resolve .inspect path = .ok (.found l node slash) :=
    resolve_eq_ok_iff.2 ⟨hnul, hempty, hshort, (filled_grow hne hvacant data).leads_found hleads⟩
  rw [inspect_eq_ok_iff.2 ⟨slash, hstill⟩]
  cases node with
  | directory _ => exact hmode
  | link _ => exact hmode
  | file id =>
    have hid : id < fs.files.size := hfiles.data l id (node?_of_inspect habsolute hinspect).2
    dsimp only [bind, Except.bind] at hmode ⊢
    rw [data_grow, if_neg (Nat.ne_of_lt hid)]
    exact hmode

theorem exists_placing_of_outcome (hfiles : WellFormed fs)
    (habsolute : Path.isAbsolute path = true)
    (hfree : ∀ l node slash,
      fs.resolve .entry (Handle.temporaryPath path) ≠ .ok (.found l node slash))
    {placed : Placed} (h : Handle.outcome fs source staged path = .ok placed) :
    ∃ dir last, Placing fs source staged path placed dir last := by
  obtain ⟨beside, bytes, mode, hentry, hne, hvacant, hrebuilt, hmode, hdestination, hdata⟩ :=
    Handle.exists_of_outcome habsolute hfree h
  obtain ⟨dir, last, hlies, hthere, ⟨target, hresolve⟩, hdirectory⟩ :=
    exists_liesIn_of_destination habsolute hdestination
  have hbefore := hlies.of_ended (ended_grow fs hne _)
  -- the place beside the archive is in the same directory
  have hbeside := (liesIn_temporaryPath hbefore).eq_targetAt
    (Handle.isAbsolute_temporaryPath habsolute) hentry
  have hnone : fs.node? (dir ++ [Handle.temporaryPath last]) = none := by
    rw [targetAt] at hbeside
    split at hbeside
    case h_1 hnone => exact hnone
    case h_2 => cases hbeside
  refine ⟨dir, last, hbefore, hthere, hnone, fun mode hmode => ?_, ?_, ?_, by rw [hdata],
    fun mode' hmode' => ?_⟩
  · apply hdirectory mode
    rw [node?_grow hne]
    split
    case isTrue heq =>
      rw [heq, hvacant] at hmode
      cases hmode
    case isFalse => exact hmode
  · rcases (filled_grow hne hvacant _).resolve_before habsolute hresolve with
      hsame | ⟨slash, -, hnothing⟩
    · exact ⟨_, hsame⟩
    · exact ⟨_, hnothing⟩
  · rw [hdata]
    exact hrebuilt
  · have hshown := mode_grow hfiles habsolute hne hvacant
      ⟨bytes.toArray, newFileMode, .disk⟩ hmode'
    rw [mode_eq_look] at hshown
    rw [hdata]
    exact Except.ok.inj (hmode.symm.trans hshown)

/-- A flush that succeeds has placed a file. -/
theorem exists_placing_of_flush (hfiles : WellFormed fs)
    (habsolute : Path.isAbsolute path = true) (hsource : source.file < fs.files.size)
    (hfree : ∀ l node slash,
      fs.resolve .entry (Handle.temporaryPath path) ≠ .ok (.found l node slash))
    (hflush : (Handle.flush fs source staged path).2 = .ok ()) :
    ∃ placed dir last, NamesPlace fs path placed.1
      ∧ Placing fs source staged path placed dir last
      ∧ Becomes fs (Handle.flush fs source staged path).1 (some placed) := by
  obtain ⟨hresult, hbecomes⟩ :=
    @Handle.becomes_flush fs source staged path hfiles habsolute hsource hfree
  cases houtcome : Handle.outcome fs source staged path with
  | error e =>
    rw [houtcome] at hresult
    cases hresult.symm.trans hflush
  | ok placed =>
    rw [houtcome] at hbecomes
    obtain ⟨dir, last, hplacing⟩ := exists_placing_of_outcome hfiles habsolute hfree houtcome
    exact ⟨placed, dir, last, Handle.namesPlace_of_outcome habsolute hfree houtcome, hplacing,
      hbecomes⟩

section Placing

variable {placed : Placed}

/-- Where a file was placed, it stands. -/
theorem Becomes.exists_node? (h : Becomes fs fs' (some placed)) :
    ∃ id, fs'.node? placed.1 = some (.file id) ∧ fs'.data id = placed.2 := by
  refine exists_node?_eq_file_iff.2 ?_
  rw [h.content]
  exact if_pos rfl

/-- Nothing is found beside the archive afterwards. -/
theorem Becomes.resolve_beside (h : Becomes fs fs' (some placed))
    (hplacing : Placing fs source staged path placed dir last)
    (habsolute : Path.isAbsolute path = true) (l : Location) (node : Node) (slash : Bool) :
    fs'.resolve .entry (Handle.temporaryPath path) ≠ .ok (.found l node slash) := by
  intro hfound
  have htemporary := Handle.isAbsolute_temporaryPath habsolute
  have hbeside := liesIn_temporaryPath hplacing.lies
  obtain ⟨isName, front, links, steps, hsegments, henters⟩ := hbeside
  obtain ⟨dir', hlies⟩ := liesIn_of_resolve htemporary hsegments isName hfound
  -- nothing new leads on, so that the directory is the one of before
  obtain rfl := (hlies.of_ended h.ended).dir_eq (liesIn_temporaryPath hplacing.lies)
  have htarget := hlies.eq_targetAt htemporary hfound
  rw [targetAt] at htarget
  split at htarget
  case h_1 => cases htarget
  case h_2 node' hnode =>
    have hcontent := h.content (dir ++ [Handle.temporaryPath last])
    have hne : dir ++ [Handle.temporaryPath last] ≠ placed.1 := by
      rw [hplacing.there]
      exact fun heq => temporaryPath_ne last (List.singleton_inj.1 (List.append_cancel_left heq))
    dsimp only at hcontent
    rw [if_neg hne, node?_eq_none_iff.1 hplacing.vacant, content?_of_node? hnode] at hcontent
    cases hcontent

/-- The archive's path leads to the file that was placed, unless a link stood there. -/
theorem Becomes.openFile (h : Becomes fs fs' (some placed))
    (hplacing : Placing fs source staged path placed dir last)
    (habsolute : Path.isAbsolute path = true)
    (hlink : ∀ goal, fs.node? placed.1 ≠ some (.link goal)) {id : FileId}
    (hnode : fs'.node? placed.1 = some (.file id)) : fs'.openFile path = .ok (some id) := by
  have hended : Ended fs' fs := by
    refine ⟨fun l mode hl => ⟨mode, ?_⟩, fun l goal hl => ?_⟩
    · have hne : l ≠ placed.1 := fun heq => hplacing.directory mode (heq ▸ hl)
      rw [node?_eq_directory_iff] at hl ⊢
      rw [h.content]
      exact (if_neg hne).trans hl
    · have hne : l ≠ placed.1 := fun heq => hlink goal (heq ▸ hl)
      rw [node?_eq_link_iff] at hl ⊢
      rw [h.content]
      exact (if_neg hne).trans hl
  obtain ⟨target, hresolve⟩ := hplacing.resolves
  rw [hplacing.there] at hnode
  have hfile := hplacing.lies.resolve_file habsolute hresolve hended hnode
  exact openFile_eq_ok_some_iff.2 ⟨_, inspect_eq_ok_iff.2 ⟨false, hfile⟩⟩

end Placing

end Archive

end Reline
