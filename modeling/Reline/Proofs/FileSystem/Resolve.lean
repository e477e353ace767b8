/-
  Reline.Proofs.FileSystem.Resolve

  Where paths lead.

  From a directory that is reached by names, a path leads to a place in such a
  directory. The path of that place leads there again, past directories only.
  Where a path leads depends on what stands on the way: replacing the file that
  it finds, and removing a file elsewhere, does not change the place.
-/

import Reline.FileSystem.Operations
import Reline.Proofs.Except
import Reline.Proofs.FileSystem.Path

namespace Reline.FileSystem

variable {fs fs' : FileSystem} {purpose : Purpose}

/-! ## Directories that are reached by names -/

/-- A directory that names lead to from the root. -/
inductive Reaches (fs : FileSystem) : Location → Prop where
  | root : Reaches fs []
  | down {dir : Location} {name : String} {mode : Nat} (above : Reaches fs dir)
    (isName : IsName name) (node : fs.node? (dir ++ [name]) = some (.directory mode)) :
    Reaches fs (dir ++ [name])

/-- A file system whose current directory is made of names, and the data of whose files is there. -/
structure WellFormed (fs : FileSystem) : Prop where
  current : ∀ name ∈ fs.current, IsName name
  data : ∀ location id, fs.node? location = some (.file id) → id < fs.files.size

theorem node?_root (fs : FileSystem) : fs.node? [] = some (.directory newDirectoryMode) := rfl

/-- What stands at a place other than the root is listed. -/
theorem mem_nodes_of_node? {location : Location} {node : Node}
    (h : fs.node? location = some node) (hroot : location ≠ []) : (location, node) ∈ fs.nodes := by
  rw [node?, if_neg hroot] at h
  obtain ⟨before, behind, hnodes, -⟩ := List.lookup_eq_some_iff.1 h
  rw [hnodes]
  exact List.mem_append_right _ (List.mem_cons_self ..)

/-- It is enough that the data of each file that is listed is there. -/
theorem wellFormed_of_forall (hcurrent : ∀ name ∈ fs.current, IsName name)
    (hdata : ∀ pair ∈ fs.nodes, ∀ id, pair.2 = .file id → id < fs.files.size) : fs.WellFormed := by
  refine ⟨hcurrent, fun location id hnode => ?_⟩
  have hroot : location ≠ [] := by
    rintro rfl
    exact nomatch fs.node?_root.symm.trans hnode
  exact hdata _ (mem_nodes_of_node? hnode hroot) id rfl

theorem Reaches.isDirectory {dir : Location} (h : Reaches fs dir) :
    ∃ mode, fs.node? dir = some (.directory mode) := by
  cases h with
  | root => exact ⟨_, node?_root fs⟩
  | down above isName node => exact ⟨_, node⟩

theorem Reaches.isName {dir : Location} (h : Reaches fs dir) : ∀ name ∈ dir, IsName name := by
  induction h with
  | root =>
    intro name hname
    contradiction
  | down above isName node ih =>
    intro n hn
    rcases List.mem_append.1 hn with hn | hn
    · exact ih n hn
    · exact List.mem_singleton.1 hn ▸ isName

theorem Reaches.dropLast {dir : Location} (h : Reaches fs dir) : Reaches fs dir.dropLast := by
  cases h with
  | root => exact .root
  | down above isName node => exact List.dropLast_concat ▸ above

/-- The path of a link begins at the root or where the link stands. -/
theorem Reaches.start {here : Location} (h : Reaches fs here) (goal : String) :
    Reaches fs (if Path.isAbsolute goal then [] else here) := by
  split
  · exact .root
  · exact h

/-- A directory is still reached when directories stay where they are. -/
theorem Reaches.of_forall {dir : Location} (h : Reaches fs dir)
    (hkeep : ∀ location mode, fs.node? location = some (.directory mode)
      → ∃ mode', fs'.node? location = some (.directory mode')) : Reaches fs' dir := by
  induction h with
  | root => exact .root
  | down above isName node ih =>
    obtain ⟨mode', node'⟩ := hkeep _ _ node
    exact .down ih isName node'

/-- A place in a directory that is reached. -/
inductive InDirectory (fs : FileSystem) : Location → Prop where
  | mk {dir : Location} {name : String} (above : Reaches fs dir) (isName : IsName name) :
    InDirectory fs (dir ++ [name])

theorem InDirectory.isName {location : Location} (h : InDirectory fs location) :
    ∀ name ∈ location, IsName name := by
  obtain ⟨above, isName⟩ := h
  intro n hn
  rcases List.mem_append.1 hn with hn | hn
  · exact above.isName n hn
  · exact List.mem_singleton.1 hn ▸ isName

theorem InDirectory.ne_nil {location : Location} (h : InDirectory fs location) :
    location ≠ [] := by
  obtain ⟨above, isName⟩ := h
  exact List.append_ne_nil_of_right_ne_nil _ (List.cons_ne_nil _ _)

/-- The names in front of others lead to a directory. -/
theorem Reaches.isDirectory_of_append {front back : Location} (h : Reaches fs (front ++ back)) :
    ∃ mode, fs.node? front = some (.directory mode) := by
  generalize hdir : front ++ back = dir at h
  induction h generalizing back with
  | root =>
    rw [(List.append_eq_nil_iff.1 hdir).1]
    exact ⟨_, node?_root fs⟩
  | @down dir name mode above isName node ih =>
    rcases List.eq_nil_or_concat back with rfl | ⟨init, last, rfl⟩
    · rw [← hdir, List.append_nil] at node
      exact ⟨mode, node⟩
    · rw [List.concat_eq_append, ← List.append_assoc] at hdir
      exact ih (List.append_inj_left' hdir rfl)

theorem InDirectory.isDirectory_of_append {front back : Location}
    (h : InDirectory fs (front ++ back)) (hne : back ≠ []) :
    ∃ mode, fs.node? front = some (.directory mode) := by
  generalize hplace : front ++ back = location at h
  obtain ⟨above, -⟩ := h
  rcases List.eq_nil_or_concat back with rfl | ⟨init, last, rfl⟩
  · contradiction
  · rw [List.concat_eq_append, ← List.append_assoc] at hplace
    rw [← List.append_inj_left' hplace rfl] at above
    exact above.isDirectory_of_append

/-! ## Following a path -/

/-- Whether nothing but slashes follows a name. -/
def isFinal (rest : List String) : Bool := rest.all (· = "")

/-- Whether a segment is looked up in a directory. -/
structure IsLookedUp (purpose : Purpose) (segment : String) (rest : List String) : Prop where
  notNeutral : Path.isNeutral segment = false
  notAbove : segment ≠ ".."
  notCreated : (isFinal rest && !rest.isEmpty && decide (purpose = .create)) = false
  short : segment.utf8ByteSize ≤ nameLimit

theorem IsLookedUp.follow_eq {segment : String} {rest : List String}
    (h : IsLookedUp purpose segment rest) (links steps : Nat) (here : Location) :
    fs.follow purpose links (steps + 1) here (segment :: rest)
      = match fs.node? (here ++ [segment]) with
        | none =>
          if isFinal rest then .ok (.vacant (here ++ [segment]) (!rest.isEmpty))
          else .error .notFound
        | some (.directory mode) =>
          if isFinal rest then
            .ok (.found (here ++ [segment]) (.directory mode) (!rest.isEmpty))
          else fs.follow purpose links steps (here ++ [segment]) rest
        | some (.file id) =>
          if !rest.isEmpty && !(isFinal rest && decide (purpose = .entry)) then
            .error .notDirectory
          else .ok (.found (here ++ [segment]) (.file id) (!rest.isEmpty))
        | some (.link goal) =>
          if isFinal rest && decide (purpose = .entry) then
            .ok (.found (here ++ [segment]) (.link goal) (!rest.isEmpty))
          else
            match links with
            | 0 => .error .linkLoop
            | links + 1 =>
              fs.follow purpose links steps (if Path.isAbsolute goal then [] else here)
                (Path.segments goal ++ rest) := by
  have hcreated := Bool.eq_false_iff.1 h.notCreated
  rw [isFinal] at hcreated
  -- the checks in front of the look-up let the segment pass
  rw [follow, if_neg (Bool.eq_false_iff.1 h.notNeutral), if_neg h.notAbove]
  dsimp only
  rw [if_neg hcreated, if_neg (Nat.not_lt.2 h.short)]
  rfl

theorem IsLookedUp.isName {segment : String} {rest : List String}
    (h : IsLookedUp purpose segment rest) (hslash : ∀ s ∈ segment :: rest, '/' ∉ s.toList) :
    IsName segment :=
  ⟨hslash _ (List.mem_cons_self ..), h.notNeutral, h.notAbove⟩

/-- A slash may follow the name of a file only if the name is the last one. -/
theorem isFinal_of_slash {rest : List String}
    (slash : (!rest.isEmpty && !(isFinal rest && decide (purpose = .entry))) = false) :
    isFinal rest = true := by
  cases rest with
  | nil => rfl
  | cons next rest =>
    rw [List.isEmpty_cons, Bool.not_false, Bool.true_and, Bool.not_eq_false',
      Bool.and_eq_true] at slash
    exact slash.1

/-- The ways in which segments lead from a directory to a target. -/
inductive Leads (fs : FileSystem) (purpose : Purpose) :
    (links steps : Nat) → Location → List String → Target → Prop where
  /-- Nothing is left to follow. -/
  | arrive {links steps : Nat} {here : Location} {node : Node}
    (stands : fs.node? here = some node) :
    Leads fs purpose links steps here [] (.found here node false)
  /-- A neutral segment names nothing. -/
  | stay {links steps : Nat} {here : Location} {segment : String} {rest : List String}
    {target : Target} (neutral : Path.isNeutral segment = true)
    (next : Leads fs purpose links steps here rest target) :
    Leads fs purpose links (steps + 1) here (segment :: rest) target
  /-- Two dots name the directory above. -/
  | up {links steps : Nat} {here : Location} {rest : List String} {target : Target}
    (next : Leads fs purpose links steps here.dropLast rest target) :
    Leads fs purpose links (steps + 1) here (".." :: rest) target
  /-- The last name may name nothing yet. -/
  | vacant {links steps : Nat} {here : Location} {segment : String} {rest : List String}
    (lookedUp : IsLookedUp purpose segment rest) (stands : fs.node? (here ++ [segment]) = none)
    (final : isFinal rest = true) :
    Leads fs purpose links (steps + 1) here (segment :: rest)
      (.vacant (here ++ [segment]) (!rest.isEmpty))
  /-- The last name may name a directory. -/
  | directory {links steps : Nat} {here : Location} {segment : String} {rest : List String}
    {mode : Nat} (lookedUp : IsLookedUp purpose segment rest)
    (stands : fs.node? (here ++ [segment]) = some (.directory mode)) (final : isFinal rest = true) :
    Leads fs purpose links (steps + 1) here (segment :: rest)
      (.found (here ++ [segment]) (.directory mode) (!rest.isEmpty))
  /-- Any other name of a directory leads into it. -/
  | down {links steps : Nat} {here : Location} {segment : String} {rest : List String}
    {target : Target} {mode : Nat} (lookedUp : IsLookedUp purpose segment rest)
    (stands : fs.node? (here ++ [segment]) = some (.directory mode)) (final : isFinal rest = false)
    (next : Leads fs purpose links steps (here ++ [segment]) rest target) :
    Leads fs purpose links (steps + 1) here (segment :: rest) target
  /-- A file has to be the last name. -/
  | file {links steps : Nat} {here : Location} {segment : String} {rest : List String}
    {id : FileId} (lookedUp : IsLookedUp purpose segment rest)
    (stands : fs.node? (here ++ [segment]) = some (.file id))
    (slash : (!rest.isEmpty && !(isFinal rest && decide (purpose = .entry))) = false) :
    Leads fs purpose links (steps + 1) here (segment :: rest)
      (.found (here ++ [segment]) (.file id) (!rest.isEmpty))
  /-- A link can be meant itself. -/
  | link {links steps : Nat} {here : Location} {segment : String} {rest : List String}
    {goal : String} (lookedUp : IsLookedUp purpose segment rest)
    (stands : fs.node? (here ++ [segment]) = some (.link goal))
    (itself : (isFinal rest && decide (purpose = .entry)) = true) :
    Leads fs purpose links (steps + 1) here (segment :: rest)
      (.found (here ++ [segment]) (.link goal) (!rest.isEmpty))
  /-- Else the path of the link comes first, and then the rest. -/
  | through {links steps : Nat} {here : Location} {segment : String} {rest : List String}
    {target : Target} {goal : String} (lookedUp : IsLookedUp purpose segment rest)
    (stands : fs.node? (here ++ [segment]) = some (.link goal))
    (itself : (isFinal rest && decide (purpose = .entry)) = false)
    (next : Leads fs purpose links steps (if Path.isAbsolute goal then [] else here)
      (Path.segments goal ++ rest) target) :
    Leads fs purpose (links + 1) (steps + 1) here (segment :: rest) target

section Following

variable {links steps : Nat} {here : Location} {segment : String} {segments rest : List String}
  {target : Target}

/-- Induction along segments: each takes a step, and it is skipped, leads up or is looked up.
Looking one up may lead anywhere, a link even to more segments, but with a step less. -/
@[elab_as_elim]
theorem segments_induction {motive : Nat → Nat → Location → List String → Prop}
    (nil : ∀ links steps here, motive links steps here [])
    (exhausted : ∀ links here segment rest, motive links 0 here (segment :: rest))
    (stay : ∀ links steps here segment rest, Path.isNeutral segment = true →
      motive links steps here rest → motive links (steps + 1) here (segment :: rest))
    (up : ∀ links steps here rest, motive links steps here.dropLast rest →
      motive links (steps + 1) here (".." :: rest))
    (name : ∀ links steps here segment rest, Path.isNeutral segment = false → segment ≠ ".." →
      (∀ links here segments, motive links steps here segments) →
        motive links (steps + 1) here (segment :: rest))
    (links steps : Nat) (here : Location) (segments : List String) :
    motive links steps here segments := by
  induction steps generalizing links here segments with
  | zero =>
    cases segments with
    | nil => exact nil links 0 here
    | cons segment rest => exact exhausted links here segment rest
  | succ steps ih =>
    cases segments with
    | nil => exact nil links (steps + 1) here
    | cons segment rest =>
      by_cases neutral : Path.isNeutral segment = true
      case pos => exact stay links steps here segment rest neutral (ih ..)
      case neg =>
        by_cases above : segment = ".."
        case pos =>
          subst above
          exact up links steps here rest (ih ..)
        case neg =>
          exact name links steps here segment rest (eq_false_of_ne_true neutral) above ih

theorem follow_cons_of_neutral (neutral : Path.isNeutral segment = true) :
    fs.follow purpose links (steps + 1) here (segment :: rest)
      = fs.follow purpose links steps here rest := by
  rw [follow, if_pos neutral]

theorem follow_cons_above :
    fs.follow purpose links (steps + 1) here (".." :: rest)
      = fs.follow purpose links steps here.dropLast rest := by
  rw [follow, if_neg (by decide), if_pos rfl]

theorem follow_nil :
    fs.follow purpose links steps here []
      = match fs.node? here with
        | some node => .ok (.found here node false)
        | none => .error .notFound := by
  cases steps <;> rfl

theorem leads_of_follow_nil (h : fs.follow purpose links steps here [] = .ok target) :
    Leads fs purpose links steps here [] target := by
  rw [follow_nil] at h
  split at h
  case h_1 node stands =>
    cases h
    exact .arrive stands
  case h_2 => contradiction

/-- A segment that is neither skipped nor looked up is refused, whatever stands where. -/
theorem exists_follow_eq_error (notNeutral : Path.isNeutral segment = false)
    (notAbove : segment ≠ "..") (h : ¬ IsLookedUp purpose segment rest) :
    ∃ e, ∀ (fs : FileSystem) (links steps : Nat) (here : Location),
      fs.follow purpose links (steps + 1) here (segment :: rest) = .error e := by
  by_cases hcreated : (isFinal rest && !rest.isEmpty && decide (purpose = .create)) = true
  case pos =>
    refine ⟨.isDirectory, fun fs links steps here => ?_⟩
    rw [follow, if_neg (Bool.eq_false_iff.1 notNeutral), if_neg notAbove]
    exact if_pos hcreated
  case neg =>
    have hlong : nameLimit < segment.utf8ByteSize :=
      Nat.not_le.1 fun short => h ⟨notNeutral, notAbove, eq_false_of_ne_true hcreated, short⟩
    refine ⟨.nameTooLong, fun fs links steps here => ?_⟩
    rw [follow, if_neg (Bool.eq_false_iff.1 notNeutral), if_neg notAbove]
    exact (if_neg hcreated).trans (if_pos hlong)

theorem isLookedUp_of_follow
    (h : fs.follow purpose links (steps + 1) here (segment :: rest) = .ok target)
    (notNeutral : Path.isNeutral segment = false) (notAbove : segment ≠ "..") :
    IsLookedUp purpose segment rest := by
  refine Classical.byContradiction fun hnot => ?_
  obtain ⟨e, he⟩ := exists_follow_eq_error notNeutral notAbove hnot
  cases h.symm.trans (he fs links steps here)

/-- Where a segment that is looked up leads, given where those behind it lead. -/
theorem IsLookedUp.leads (lookedUp : IsLookedUp purpose segment rest)
    (hnext : ∀ links here segments, fs.follow purpose links steps here segments = .ok target
      → Leads fs purpose links steps here segments target)
    (h : fs.follow purpose links (steps + 1) here (segment :: rest) = .ok target) :
    Leads fs purpose links (steps + 1) here (segment :: rest) target := by
  rw [lookedUp.follow_eq] at h
  split at h
  case h_1 stands =>
    split at h
    case isTrue final =>
      cases h
      exact .vacant lookedUp stands final
    case isFalse => contradiction
  case h_2 mode stands =>
    split at h
    case isTrue final =>
      cases h
      exact .directory lookedUp stands final
    case isFalse final => exact .down lookedUp stands (eq_false_of_ne_true final) (hnext _ _ _ h)
  case h_3 id stands =>
    split at h
    case isTrue => contradiction
    case isFalse slash =>
      cases h
      exact .file lookedUp stands (eq_false_of_ne_true slash)
  case h_4 goal stands =>
    split at h
    case isTrue itself =>
      cases h
      exact .link lookedUp stands itself
    case isFalse itself =>
      cases links with
      | zero => contradiction
      | succ links => exact .through lookedUp stands (eq_false_of_ne_true itself) (hnext _ _ _ h)

theorem leads_of_follow (h : fs.follow purpose links steps here segments = .ok target) :
    Leads fs purpose links steps here segments target := by
  induction links, steps, here, segments using segments_induction with
  | nil => exact leads_of_follow_nil h
  | exhausted =>
    rw [follow] at h
    contradiction
  | stay _ _ _ _ _ neutral ih =>
    rw [follow_cons_of_neutral neutral] at h
    exact .stay neutral (ih h)
  | up _ _ _ _ ih =>
    rw [follow_cons_above] at h
    exact .up (ih h)
  | name _ _ _ _ _ neutral above ih => exact (isLookedUp_of_follow h neutral above).leads ih h

theorem Leads.follow_eq (h : Leads fs purpose links steps here segments target) :
    fs.follow purpose links steps here segments = .ok target := by
  induction h with
  | arrive stands => rw [follow_nil, stands]
  | stay neutral next ih => rw [follow_cons_of_neutral neutral, ih]
  | up next ih => rw [follow_cons_above, ih]
  | vacant lookedUp stands final => rw [lookedUp.follow_eq, stands]; exact if_pos final
  | directory lookedUp stands final => rw [lookedUp.follow_eq, stands]; exact if_pos final
  | down lookedUp stands final next ih =>
    rw [lookedUp.follow_eq, stands, ← ih]
    exact if_neg (Bool.eq_false_iff.1 final)
  | file lookedUp stands slash =>
    rw [lookedUp.follow_eq, stands]
    exact if_neg (Bool.eq_false_iff.1 slash)
  | link lookedUp stands itself => rw [lookedUp.follow_eq, stands]; exact if_pos itself
  | through lookedUp stands itself next ih =>
    rw [lookedUp.follow_eq, stands, ← ih]
    exact if_neg (Bool.eq_false_iff.1 itself)

/-- Following segments is what the ways say. -/
theorem follow_eq_ok_iff :
    fs.follow purpose links steps here segments = .ok target
      ↔ Leads fs purpose links steps here segments target :=
  ⟨leads_of_follow, Leads.follow_eq⟩

end Following

/-! ## Where a path leads -/

/-- What a target says of its place is so, and the place is a directory of a class or in one. It is
no link unless links are meant themselves. -/
inductive Ends (fs : FileSystem) (purpose : Purpose) (P : Location → Prop) : Target → Prop where
  | arrived {here : Location} {node : Node} (there : P here) (stands : fs.node? here = some node) :
    Ends fs purpose P (.found here node false)
  | found {here : Location} {name : String} {node : Node} {slash : Bool} (above : P here)
    (isName : IsName name) (stands : fs.node? (here ++ [name]) = some node)
    (followed : purpose = .entry ∨ ∀ goal, node ≠ .link goal) :
    Ends fs purpose P (.found (here ++ [name]) node slash)
  | vacant {here : Location} {name : String} {slash : Bool} (above : P here)
    (isName : IsName name) (stands : fs.node? (here ++ [name]) = none) :
    Ends fs purpose P (.vacant (here ++ [name]) slash)

/-- Segments lead on in a class of directories that has the root, and with each the one above and
those that names lead to. -/
theorem Leads.ends {P : Location → Prop} {links steps : Nat} {here : Location}
    {segments : List String} {target : Target}
    (h : Leads fs purpose links steps here segments target) (hroot : P [])
    (hup : ∀ dir, P dir → P dir.dropLast)
    (hdown : ∀ dir name mode, P dir → IsName name →
      fs.node? (dir ++ [name]) = some (.directory mode) → P (dir ++ [name]))
    (hhere : P here) (hslash : ∀ segment ∈ segments, '/' ∉ segment.toList) :
    Ends fs purpose P target := by
  induction h with
  | arrive stands => exact .arrived hhere stands
  | stay neutral next ih => exact ih hhere fun s hs => hslash s (List.mem_cons_of_mem _ hs)
  | up next ih => exact ih (hup _ hhere) fun s hs => hslash s (List.mem_cons_of_mem _ hs)
  | vacant lookedUp stands final => exact .vacant hhere (lookedUp.isName hslash) stands
  | directory lookedUp stands final =>
    exact .found hhere (lookedUp.isName hslash) stands (.inr nofun)
  | down lookedUp stands final next ih =>
    exact ih (hdown _ _ _ hhere (lookedUp.isName hslash) stands)
      fun s hs => hslash s (List.mem_cons_of_mem _ hs)
  | file lookedUp stands slash =>
    exact .found hhere (lookedUp.isName hslash) stands (.inr nofun)
  | link lookedUp stands itself =>
    rw [Bool.and_eq_true, decide_eq_true_eq] at itself
    exact .found hhere (lookedUp.isName hslash) stands (.inl itself.2)
  | through lookedUp stands itself next ih =>
    -- the path of the link begins at the root or where the link stands
    refine ih ?_ (Path.forall_segments_append _ (List.forall_mem_cons.1 hslash).2)
    split
    · exact hroot
    · exact hhere

/-! ## The path of a place -/

/-- What is found at a place. -/
def targetAt (fs : FileSystem) (location : Location) : Target :=
  match fs.node? location with
  | none => .vacant location false
  | some node => .found location node false

theorem Leads.of_neutral {links steps : Nat} {here : Location} {segment : String}
    {rest : List String} {target : Target} (hneutral : Path.isNeutral segment = true)
    (h : Leads fs purpose links steps here (segment :: rest) target) :
    ∃ steps', Leads fs purpose links steps' here rest target := by
  have hnot {segment : String} {rest : List String} (h : IsLookedUp purpose segment rest) :
      Path.isNeutral segment ≠ true := Bool.eq_false_iff.1 h.notNeutral
  cases h with
  | stay neutral next => exact ⟨_, next⟩
  | up next => exact absurd hneutral (by decide)
  | vacant lookedUp => exact absurd hneutral (hnot lookedUp)
  | directory lookedUp => exact absurd hneutral (hnot lookedUp)
  | down lookedUp => exact absurd hneutral (hnot lookedUp)
  | file lookedUp => exact absurd hneutral (hnot lookedUp)
  | link lookedUp => exact absurd hneutral (hnot lookedUp)
  | through lookedUp => exact absurd hneutral (hnot lookedUp)

/-- Names that lead to a directory can be left out in front of other names. -/
theorem Leads.of_reaches {links steps : Nat} {dir : Location} {segments : List String}
    {target : Target} (hdir : Reaches fs dir) (hsegments : ∃ segment ∈ segments, segment ≠ "")
    (h : Leads fs purpose links steps [] (dir ++ segments) target) :
    ∃ steps', Leads fs purpose links steps' dir segments target := by
  induction hdir generalizing segments with
  | root => exact ⟨steps, h⟩
  | @down above name mode reached isName node ih =>
    rw [List.append_assoc] at h
    obtain ⟨steps', h⟩ := ih ⟨name, List.mem_cons_self .., isName.ne_empty⟩ h
    have hfinal : isFinal segments = false := by
      obtain ⟨segment, hmem, hne⟩ := hsegments
      rw [isFinal, List.all_eq_false]
      exact ⟨segment, hmem, by simpa using hne⟩
    -- the name is one of a directory and not the last one, so it leads into the directory
    have h : Leads fs purpose links steps' above (name :: segments) target := h
    cases h with
    | stay neutral next => exact absurd neutral (by rw [isName.notNeutral]; exact nofun)
    | up next => exact absurd rfl isName.notAbove
    | vacant lookedUp stands final => cases node.symm.trans stands
    | directory lookedUp stands final => exact absurd final (by rw [hfinal]; exact nofun)
    | down lookedUp stands final next => exact ⟨_, next⟩
    | file lookedUp stands slash => cases node.symm.trans stands
    | link lookedUp stands itself => cases node.symm.trans stands
    | through lookedUp stands itself next => cases node.symm.trans stands

/-- The last name leads to what it names, unless that is a link that is followed. -/
theorem Leads.eq_targetAt {links steps : Nat} {dir : Location} {name : String} {target : Target}
    (isName : IsName name) (h : Leads fs purpose links steps dir [name] target)
    (hlink : purpose = .entry ∨ ∀ goal, fs.node? (dir ++ [name]) ≠ some (.link goal)) :
    target = fs.targetAt (dir ++ [name]) := by
  cases h with
  | stay neutral next => exact absurd neutral (by rw [isName.notNeutral]; exact nofun)
  | up next => exact absurd rfl isName.notAbove
  | vacant lookedUp stands final => rw [targetAt, stands]; rfl
  | directory lookedUp stands final => rw [targetAt, stands]; rfl
  | down lookedUp stands final next => contradiction
  | file lookedUp stands slash => rw [targetAt, stands]; rfl
  | link lookedUp stands itself => rw [targetAt, stands]; rfl
  | through lookedUp stands itself next =>
    rcases hlink with hentry | hlink
    · rw [hentry] at itself
      contradiction
    · exact absurd stands (hlink _)

/-- Segments that name the rest of the way to a file lead to it, if they lead to a file at all. -/
theorem Leads.eq_of_names {links steps : Nat} {here location l : Location} {segments : List String}
    {id id' : FileId} {slash : Bool} (hplace : InDirectory fs location)
    (hfile : fs.node? location = some (.file id'))
    (hnames : here ++ segments.filter (fun segment => !Path.isNeutral segment) = location)
    (h : Leads fs purpose links steps here segments (.found l (.file id) slash)) :
    l = location ∧ id = id' := by
  generalize htarget : Target.found l (.file id) slash = target at h
  -- what a name on the way leads to is a directory, or the file at its end
  have hway {here : Location} {segment : String} {rest : List String}
      (hlooked : IsLookedUp purpose segment rest)
      (hnames : here ++ (segment :: rest).filter (fun segment => !Path.isNeutral segment)
        = location) :
      (here ++ [segment]) ++ rest.filter (fun segment => !Path.isNeutral segment) = location
        ∧ ((∃ mode, fs.node? (here ++ [segment]) = some (.directory mode))
          ∨ here ++ [segment] = location) := by
    rw [List.filter_cons_of_pos (by rw [hlooked.notNeutral]; rfl), List.append_cons] at hnames
    refine ⟨hnames, ?_⟩
    by_cases hrest : rest.filter (fun segment => !Path.isNeutral segment) = []
    · rw [hrest, List.append_nil] at hnames
      exact .inr hnames
    · rw [← hnames] at hplace
      exact .inl (hplace.isDirectory_of_append hrest)
  induction h with
  | arrive stands =>
    cases htarget
    rw [List.filter_nil, List.append_nil] at hnames
    subst hnames
    cases hfile.symm.trans stands
    exact ⟨rfl, rfl⟩
  | stay neutral next ih =>
    rw [List.filter_cons_of_neg (by rw [neutral]; decide)] at hnames
    exact ih hnames htarget
  | up next ih =>
    -- the place has no such name
    rw [List.filter_cons_of_pos (by decide)] at hnames
    have hmem : ".." ∈ location := hnames ▸ List.mem_append_right _ (List.mem_cons_self ..)
    exact absurd rfl (hplace.isName _ hmem).notAbove
  | vacant => contradiction
  | directory => cases htarget
  | down lookedUp stands final next ih => exact ih (hway lookedUp hnames).1 htarget
  | file lookedUp stands slash =>
    cases htarget
    rcases (hway lookedUp hnames).2 with ⟨mode, hmode⟩ | hend
    · cases hmode.symm.trans stands
    · rw [hend] at stands
      cases hfile.symm.trans stands
      exact ⟨hend, rfl⟩
  | link => cases htarget
  | through lookedUp stands itself next ih =>
    rcases (hway lookedUp hnames).2 with ⟨mode, hmode⟩ | hend
    · cases hmode.symm.trans stands
    · rw [hend] at stands
      cases hfile.symm.trans stands

/-! ## Paths -/

/-- A path that is not too long leads where its segments do. -/
theorem resolve_eq_ok_iff {path : String} {target : Target} :
    fs.resolve purpose path = .ok target
      ↔ '\x00' ∉ path.toList ∧ path ≠ "" ∧ path.utf8ByteSize < pathLimit
        ∧ Leads fs purpose linkLimit stepLimit (if Path.isAbsolute path then [] else fs.current)
          (Path.segments path) target := by
  constructor
  · intro h
    rw [resolve] at h
    split at h
    case isTrue => contradiction
    case isFalse hnul =>
      split at h
      case isTrue => contradiction
      case isFalse hempty =>
        split at h
        case isTrue => contradiction
        case isFalse hlong =>
          have hfollow := follow_eq_ok_iff.1 (mapError_eq_ok_iff.1 h)
          exact ⟨by simpa using hnul, hempty, Nat.not_le.1 hlong, hfollow⟩
  · rintro ⟨hnul, hempty, hlong, h⟩
    rw [resolve, if_neg (by simpa using hnul), if_neg hempty, if_neg (Nat.not_le.2 hlong)]
    exact mapError_eq_ok_iff.2 (follow_eq_ok_iff.2 h)

/-- A path from the root ends in directories that are reached. -/
theorem ends_of_resolve {path : String} (habsolute : Path.isAbsolute path = true)
    {target : Target} (h : fs.resolve purpose path = .ok target) :
    Ends fs purpose (Reaches fs) target := by
  obtain ⟨-, -, -, hleads⟩ := resolve_eq_ok_iff.1 h
  rw [if_pos habsolute] at hleads
  refine hleads.ends .root (fun dir hdir => hdir.dropLast) ?_ .root ?_
  · intro dir name mode hdir isName hnode
    exact .down hdir isName hnode
  · intro segment hsegment
    exact Path.not_mem_of_mem_segments hsegment

/-- Any path ends at places that are made of names. -/
theorem named_of_resolve (hcurrent : ∀ name ∈ fs.current, IsName name) {path : String}
    {target : Target} (h : fs.resolve purpose path = .ok target) :
    Ends fs purpose (fun dir => ∀ name ∈ dir, IsName name) target := by
  obtain ⟨-, -, -, hleads⟩ := resolve_eq_ok_iff.1 h
  refine hleads.ends (List.forall_mem_nil _) ?_ ?_ ?_ ?_
  · intro dir hdir name hname
    exact hdir name (List.dropLast_subset _ hname)
  · intro dir name mode hdir isName hnode
    exact List.forall_mem_append.2 ⟨hdir, List.forall_mem_singleton.2 isName⟩
  · split
    · exact List.forall_mem_nil _
    · exact hcurrent
  · intro segment hsegment
    exact Path.not_mem_of_mem_segments hsegment

/-- What any path finds stands at a place that is made of names. -/
theorem Ends.isName {location : Location} {node : Node} {slash : Bool}
    (h : Ends fs purpose (fun dir => ∀ name ∈ dir, IsName name) (.found location node slash)) :
    (∀ name ∈ location, IsName name) ∧ fs.node? location = some node := by
  cases h with
  | arrived there stands => exact ⟨there, stands⟩
  | found above isName stands followed =>
    exact ⟨List.forall_mem_append.2 ⟨above, List.forall_mem_singleton.2 isName⟩, stands⟩

/-- What a path from the root finds is the root, or stands in a directory that is reached. -/
theorem Ends.found_cases {location : Location} {node : Node} {slash : Bool}
    (h : Ends fs purpose (Reaches fs) (.found location node slash)) :
    location = [] ∧ node = .directory newDirectoryMode
      ∨ InDirectory fs location ∧ fs.node? location = some node
        ∧ (purpose = .entry ∨ ∀ goal, node ≠ .link goal) := by
  cases h with
  | found above isName stands followed => exact .inr ⟨.mk above isName, stands, followed⟩
  | arrived there stands =>
    cases there with
    | root => exact .inl ⟨rfl, (Option.some.inj stands).symm⟩
    | down above isName hnode =>
      cases hnode.symm.trans stands
      exact .inr ⟨.mk above isName, hnode, .inr nofun⟩

/-- The path of a place leads to it, unless a link that stands there is followed. -/
theorem eq_targetAt_of_resolve {location : Location} {target : Target}
    (hplace : InDirectory fs location) (h : fs.resolve purpose (pathOf location) = .ok target)
    (hlink : purpose = .entry ∨ ∀ goal, fs.node? location ≠ some (.link goal)) :
    target = fs.targetAt location := by
  obtain ⟨-, -, -, hleads⟩ := resolve_eq_ok_iff.1 h
  have hsegments := segments_pathOf hplace.ne_nil hplace.isName
  obtain ⟨above, isName⟩ := hplace
  rw [hsegments, isAbsolute_pathOf, if_pos rfl] at hleads
  -- the segment in front of the first slash is empty, the names behind it lead to the directory
  obtain ⟨steps, hnames⟩ := hleads.of_neutral rfl
  obtain ⟨steps', hlast⟩ := hnames.of_reaches above ⟨_, List.mem_singleton_self _, isName.ne_empty⟩
  exact hlast.eq_targetAt isName hlink

/-! ## Replacing a file -/

/-- A file system in which another file stands at the place of a file, and nothing at a second
place, where no more than a file stood before. -/
structure Replaced (fs fs' : FileSystem) (location removed : Location) (id : FileId) : Prop where
  distinct : removed ≠ location
  before : ∃ old, fs.node? location = some (.file old)
  after : fs'.node? location = some (.file id)
  noMore : ∀ node, fs.node? removed = some node → ∃ old, node = .file old
  gone : fs'.node? removed = none
  others : ∀ l, l ≠ location → l ≠ removed → fs'.node? l = fs.node? l
  current : fs'.current = fs.current

/-- What is neither a file nor nothing stays. -/
theorem Replaced.node?_eq {location removed : Location} {id : FileId}
    (h : Replaced fs fs' location removed id) {l : Location} {node : Node}
    (hnode : fs.node? l = some node) (hfile : ∀ old, node ≠ .file old) :
    fs'.node? l = some node := by
  rw [h.others l, hnode]
  · rintro rfl
    obtain ⟨old, hold⟩ := h.before
    exact hfile old (Option.some.inj (hnode.symm.trans hold))
  · rintro rfl
    obtain ⟨old, hold⟩ := h.noMore node hnode
    exact hfile old hold

/-- What stands afterwards stood there before, or a file did. -/
theorem Replaced.node?_before {location removed : Location} {id : FileId}
    (h : Replaced fs fs' location removed id) {l : Location} {node : Node}
    (hnode : fs'.node? l = some node) :
    fs.node? l = some node ∨ ∃ new old, node = .file new ∧ fs.node? l = some (.file old) := by
  by_cases hlocation : l = location
  · obtain ⟨old, hold⟩ := h.before
    rw [hlocation, h.after] at hnode
    cases hnode
    exact .inr ⟨id, old, rfl, hlocation ▸ hold⟩
  · by_cases hremoved : l = removed
    · rw [hremoved, h.gone] at hnode
      contradiction
    · rw [h.others l hlocation hremoved] at hnode
      exact .inl hnode

/-- What stands afterwards and is no file stood there before. -/
theorem Replaced.node?_before_eq {location removed : Location} {id : FileId}
    (h : Replaced fs fs' location removed id) {l : Location} {node : Node}
    (hnode : fs'.node? l = some node) (hfile : ∀ new, node ≠ .file new) :
    fs.node? l = some node := by
  rcases h.node?_before hnode with hsame | ⟨new, old, hnew, -⟩
  · exact hsame
  · exact absurd hnew (hfile new)

/-- A path that leads to the file leads to the file in its place. -/
theorem Replaced.leads {location removed : Location} {id : FileId}
    (h : Replaced fs fs' location removed id) {links steps : Nat} {here : Location}
    {segments : List String} {old : FileId} {slash : Bool}
    (hleads : Leads fs purpose links steps here segments (.found location (.file old) slash)) :
    Leads fs' purpose links steps here segments (.found location (.file id) slash) := by
  -- directories and links stay, so the way is the same up to the file at its end
  generalize htarget : Target.found location (.file old) slash = target at hleads
  induction hleads with
  | arrive stands =>
    cases htarget
    exact .arrive h.after
  | stay neutral next ih => exact .stay neutral (ih htarget)
  | up next ih => exact .up (ih htarget)
  | vacant => contradiction
  | directory => cases htarget
  | down lookedUp stands final next ih =>
    exact .down lookedUp (h.node?_eq stands nofun) final (ih htarget)
  | file lookedUp stands slash =>
    cases htarget
    exact .file lookedUp h.after slash
  | link => cases htarget
  | through lookedUp stands itself next ih =>
    exact .through lookedUp (h.node?_eq stands nofun) itself (ih htarget)

/-- A path that leads to something afterwards led to something at that place before. -/
theorem Replaced.leads_before {location removed : Location} {id : FileId}
    (h : Replaced fs fs' location removed id) {links steps : Nat} {here l : Location}
    {segments : List String} {node : Node} {slash : Bool}
    (hleads : Leads fs' purpose links steps here segments (.found l node slash)) :
    ∃ node', Leads fs purpose links steps here segments (.found l node' slash) := by
  generalize htarget : Target.found l node slash = target at hleads
  -- only files differ, and no file leads on
  induction hleads with
  | arrive stands =>
    cases htarget
    rcases h.node?_before stands with stands | ⟨-, old, -, stands⟩
    · exact ⟨_, .arrive stands⟩
    · exact ⟨_, .arrive stands⟩
  | stay neutral next ih => exact (ih htarget).imp fun _ next => .stay neutral next
  | up next ih => exact (ih htarget).imp fun _ next => .up next
  | vacant => contradiction
  | directory lookedUp stands final =>
    cases htarget
    exact ⟨_, .directory lookedUp (h.node?_before_eq stands nofun) final⟩
  | down lookedUp stands final next ih =>
    exact (ih htarget).imp fun _ next =>
      .down lookedUp (h.node?_before_eq stands nofun) final next
  | file lookedUp stands slash =>
    cases htarget
    rcases h.node?_before stands with stands | ⟨-, old, -, stands⟩
    · exact ⟨_, .file lookedUp stands slash⟩
    · exact ⟨_, .file lookedUp stands slash⟩
  | link lookedUp stands itself =>
    cases htarget
    exact ⟨_, .link lookedUp (h.node?_before_eq stands nofun) itself⟩
  | through lookedUp stands itself next ih =>
    exact (ih htarget).imp fun _ next =>
      .through lookedUp (h.node?_before_eq stands nofun) itself next

end Reline.FileSystem
