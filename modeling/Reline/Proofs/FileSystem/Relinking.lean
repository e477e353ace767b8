/-
  Reline.Proofs.FileSystem.Relinking

  A link that is moved to another place of its directory.

  A path that led to the place before and ended there is led on by the link, but to
  no new places: the path that named the link went over all of them. That path
  ended at a file or at a place where a file was created, so what follows the link
  ends there as well, or comes to the moved link again with one link less to
  follow.

  Main statement: `Relinked.staysIn`.
-/

import Reline.Proofs.FileSystem.Alike

namespace Reline.FileSystem

variable {fs fs' : FileSystem} {purpose : Purpose} {there : Location} {goal : String}
  {places : List Location}

/-! ## Names in one directory -/

/-- Whether a segment names something in the directory where it is looked up. -/
structure IsEntry (segment : String) : Prop where
  notNeutral : Path.isNeutral segment = false
  notAbove : segment ≠ ".."

theorem IsLookedUp.isEntry {segment : String} {rest : List String}
    (h : IsLookedUp purpose segment rest) : IsEntry segment :=
  ⟨h.notNeutral, h.notAbove⟩

theorem IsName.isEntry {name : String} (h : IsName name) : IsEntry name :=
  ⟨h.notNeutral, h.notAbove⟩

theorem IsEntry.ne_empty {segment : String} (h : IsEntry segment) : segment ≠ "" := by
  rintro rfl
  exact absurd h.notNeutral (by decide)

theorem isFinal_concat {front : List String} {last : String} (hlast : IsEntry last) :
    isFinal (front ++ [last]) = false := by
  rw [isFinal, List.all_append, List.all_cons, decide_eq_false hlast.ne_empty, Bool.false_and,
    Bool.and_false]

/-- Unless a path leads to a directory, or a slash follows it, it ends in a name. -/
theorem Leads.exists_concat {links steps : Nat} {here : Location} {segments : List String}
    {target : Target} (h : Leads fs .entry links steps here segments target)
    (hhere : Reaches fs here) (hslash : ∀ segment ∈ segments, '/' ∉ segment.toList)
    (htarget : (∃ node, target = .found there node false ∧ ∀ mode, node ≠ .directory mode)
      ∨ target = .vacant there false) :
    ∃ front last, segments = front ++ [last] ∧ IsEntry last := by
  have hname {segment : String} {rest : List String} (hlooked : IsLookedUp .entry segment rest)
      (hrest : (!rest.isEmpty) = false) :
      ∃ front last, segment :: rest = front ++ [last] ∧ IsEntry last := by
    rw [Bool.not_eq_false', List.isEmpty_iff] at hrest
    exact ⟨[], segment, by rw [hrest, List.nil_append], hlooked.isEntry⟩
  have hcons {segment : String} {rest : List String}
      (h : ∃ front last, rest = front ++ [last] ∧ IsEntry last) :
      ∃ front last, segment :: rest = front ++ [last] ∧ IsEntry last := by
    obtain ⟨front, last, rfl, hlast⟩ := h
    exact ⟨segment :: front, last, rfl, hlast⟩
  induction h with
  | arrive stands =>
    -- a path that just arrives is at a directory
    obtain ⟨mode, hmode⟩ := hhere.isDirectory
    rcases htarget with ⟨node, heq, hnode⟩ | heq
    · cases heq
      exact absurd (Option.some.inj (stands.symm.trans hmode)) (hnode mode)
    · cases heq
  | stay neutral next ih =>
    exact hcons (ih hhere (fun s hs => hslash s (List.mem_cons_of_mem _ hs)) htarget)
  | up next ih =>
    exact hcons (ih hhere.dropLast (fun s hs => hslash s (List.mem_cons_of_mem _ hs)) htarget)
  | vacant lookedUp stands final =>
    rcases htarget with ⟨node, heq, -⟩ | heq
    · contradiction
    · exact hname lookedUp (Target.vacant.inj heq).2
  | directory lookedUp stands final =>
    rcases htarget with ⟨node, heq, hnode⟩ | heq
    · obtain ⟨-, rfl, -⟩ := Target.found.inj heq
      exact absurd rfl (hnode _)
    · contradiction
  | down lookedUp stands final next ih =>
    exact hcons (ih (hhere.down (lookedUp.isName hslash) stands)
      (fun s hs => hslash s (List.mem_cons_of_mem _ hs)) htarget)
  | file lookedUp stands slash =>
    rcases htarget with ⟨node, heq, -⟩ | heq
    · exact hname lookedUp (Target.found.inj heq).2.2
    · contradiction
  | link lookedUp stands itself =>
    rcases htarget with ⟨node, heq, -⟩ | heq
    · exact hname lookedUp (Target.found.inj heq).2.2
    · contradiction
  | @through links steps here segment rest target goal lookedUp stands itself next ih =>
    -- the link is not the last name, so what follows it ends the path
    rw [decide_eq_true rfl, Bool.and_true] at itself
    obtain ⟨front, last, hconcat, hlast⟩ := ih (hhere.start goal)
      (Path.forall_segments_append goal (List.forall_mem_cons.1 hslash).2) htarget
    rcases List.eq_nil_or_concat rest with rfl | ⟨init, end', rfl⟩
    · contradiction
    · rw [List.concat_eq_append, ← List.append_assoc] at hconcat
      obtain ⟨-, heq⟩ := List.append_inj' hconcat rfl
      cases heq
      exact ⟨segment :: init, last, by rw [List.concat_eq_append]; rfl, hlast⟩

theorem exists_concat_of_resolve {path : String} {target : Target}
    (habsolute : Path.isAbsolute path = true) (hresolve : fs.resolve .entry path = .ok target)
    (htarget : (∃ node, target = .found there node false ∧ ∀ mode, node ≠ .directory mode)
      ∨ target = .vacant there false) :
    ∃ front last, Path.segments path = front ++ [last] ∧ IsName last := by
  obtain ⟨-, -, -, hleads⟩ := resolve_eq_ok_iff.1 hresolve
  rw [if_pos habsolute] at hleads
  obtain ⟨front, last, hsegments, hentry⟩ :=
    hleads.exists_concat .root (fun s hs => Path.not_mem_of_mem_segments hs) htarget
  have hlast : last ∈ Path.segments path :=
    hsegments ▸ List.mem_append_right _ (List.mem_singleton_self _)
  exact ⟨front, last, hsegments, Path.not_mem_of_mem_segments hlast, hentry.notNeutral,
    hentry.notAbove⟩

/-- The directory to which segments in front of a last name lead, and the links and steps that are
left there. -/
inductive Enters (fs : FileSystem) :
    (links steps : Nat) → Location → List String → (links' steps' : Nat) → Location → Prop where
  /-- Nothing stands in front of the last name. -/
  | here {links steps : Nat} {dir : Location} : Enters fs links steps dir [] links steps dir
  /-- A neutral segment names nothing. -/
  | stay {links steps links' steps' : Nat} {here dir : Location} {segment : String}
    {front : List String} (neutral : Path.isNeutral segment = true)
    (next : Enters fs links steps here front links' steps' dir) :
    Enters fs links (steps + 1) here (segment :: front) links' steps' dir
  /-- Two dots name the directory above. -/
  | up {links steps links' steps' : Nat} {here dir : Location} {front : List String}
    (next : Enters fs links steps here.dropLast front links' steps' dir) :
    Enters fs links (steps + 1) here (".." :: front) links' steps' dir
  /-- The name of a directory leads into it. -/
  | down {links steps links' steps' mode : Nat} {here dir : Location} {segment : String}
    {front : List String} (entry : IsEntry segment) (short : segment.utf8ByteSize ≤ nameLimit)
    (stands : fs.node? (here ++ [segment]) = some (.directory mode))
    (next : Enters fs links steps (here ++ [segment]) front links' steps' dir) :
    Enters fs links (steps + 1) here (segment :: front) links' steps' dir
  /-- The path of a link comes before the other segments. -/
  | through {links steps links' steps' : Nat} {here dir : Location} {segment goal : String}
    {front : List String} (entry : IsEntry segment) (short : segment.utf8ByteSize ≤ nameLimit)
    (stands : fs.node? (here ++ [segment]) = some (.link goal))
    (next : Enters fs links steps (if Path.isAbsolute goal then [] else here)
      (Path.segments goal ++ front) links' steps' dir) :
    Enters fs (links + 1) (steps + 1) here (segment :: front) links' steps' dir

section Enters

variable {links steps links' steps' : Nat} {here dir : Location} {front : List String}
  {last : String} {target : Target}

theorem IsEntry.lookedUp {segment : String} {rest : List String} (h : IsEntry segment)
    (hshort : segment.utf8ByteSize ≤ nameLimit) (hrest : isFinal rest = false) :
    IsLookedUp purpose segment rest where
  notNeutral := h.notNeutral
  notAbove := h.notAbove
  notCreated := by rw [hrest, Bool.false_and, Bool.false_and]
  short := hshort

/-- A path that ends in a name leads into the directory of the name. -/
theorem Leads.enters (h : Leads fs purpose links steps here (front ++ [last]) target)
    (hlast : IsEntry last) :
    ∃ links' steps' dir, Enters fs links steps here front links' steps' dir := by
  generalize hsegments : front ++ [last] = segments at h
  -- a segment with which a path ends is the last name
  have hlastly {links steps : Nat} {here : Location} {segment : String} {rest front : List String}
      (hsegments : front ++ [last] = segment :: rest) (hrest : isFinal rest = true) :
      ∃ links' steps' dir, Enters fs links steps here front links' steps' dir := by
    rcases front with - | ⟨first, front⟩
    · exact ⟨_, _, _, .here⟩
    · rw [← (List.cons.inj hsegments).2] at hrest
      exact absurd hrest (by rw [List.append_eq, isFinal_concat hlast]; exact nofun)
  induction h generalizing front with
  | arrive stands => exact absurd hsegments (by simp)
  | stay neutral next ih =>
    rcases List.append_eq_cons_iff.1 hsegments with ⟨rfl, -⟩ | ⟨front, rfl, rfl⟩
    · exact ⟨_, _, _, .here⟩
    · obtain ⟨links', steps', dir, henters⟩ := ih rfl
      exact ⟨links', steps', dir, .stay neutral henters⟩
  | up next ih =>
    rcases List.append_eq_cons_iff.1 hsegments with ⟨rfl, -⟩ | ⟨front, rfl, rfl⟩
    · exact ⟨_, _, _, .here⟩
    · obtain ⟨links', steps', dir, henters⟩ := ih rfl
      exact ⟨links', steps', dir, .up henters⟩
  | vacant lookedUp stands final => exact hlastly hsegments final
  | directory lookedUp stands final => exact hlastly hsegments final
  | down lookedUp stands final next ih =>
    rcases List.append_eq_cons_iff.1 hsegments with ⟨rfl, -⟩ | ⟨front, rfl, rfl⟩
    · exact ⟨_, _, _, .here⟩
    · obtain ⟨links', steps', dir, henters⟩ := ih rfl
      exact ⟨links', steps', dir, .down lookedUp.isEntry lookedUp.short stands henters⟩
  | file lookedUp stands slash => exact hlastly hsegments (isFinal_of_slash slash)
  | link lookedUp stands itself =>
    rw [Bool.and_eq_true] at itself
    exact hlastly hsegments itself.1
  | @through _ _ _ _ _ _ goal lookedUp stands itself next ih =>
    rcases List.append_eq_cons_iff.1 hsegments with ⟨rfl, -⟩ | ⟨front, rfl, rfl⟩
    · exact ⟨_, _, _, .here⟩
    · -- the last name comes behind the path of the link too
      obtain ⟨links', steps', dir, henters⟩ := ih (List.append_assoc ..)
      exact ⟨links', steps', dir, .through lookedUp.isEntry lookedUp.short stands henters⟩

/-- In the directory the last name is all that is left to follow, whatever it is. -/
theorem Enters.follow_eq (h : Enters fs links steps here front links' steps' dir)
    (hlast : IsEntry last) (purpose : Purpose) :
    fs.follow purpose links steps here (front ++ [last])
      = fs.follow purpose links' steps' dir [last] := by
  induction h with
  | here => rfl
  | stay neutral next ih => rw [List.cons_append, follow_cons_of_neutral neutral, ih]
  | up next ih => rw [List.cons_append, follow_cons_above, ih]
  | down entry short stands next ih =>
    rw [List.cons_append, (entry.lookedUp short (isFinal_concat hlast)).follow_eq, stands, ← ih]
    exact if_neg (Bool.eq_false_iff.1 (isFinal_concat hlast))
  | through entry short stands next ih =>
    rw [List.cons_append, (entry.lookedUp short (isFinal_concat hlast)).follow_eq, stands, ← ih,
      isFinal_concat hlast, List.append_assoc]
    rfl

theorem Enters.wayFrom_subset (h : Enters fs links steps here front links' steps' dir)
    {segments : List String} {l : Location} (hl : l ∈ fs.wayFrom links' steps' dir segments) :
    l ∈ fs.wayFrom links steps here (front ++ segments) := by
  induction h with
  | here => exact hl
  | stay neutral next ih =>
    rw [List.cons_append, wayFrom_cons_of_neutral neutral]
    exact ih hl
  | up next ih =>
    rw [List.cons_append, wayFrom_cons_above]
    exact ih hl
  | down entry short stands next ih =>
    rw [List.cons_append, wayFrom_cons_of_name entry.notNeutral entry.notAbove, stands]
    exact List.mem_cons_of_mem _ (ih hl)
  | through entry short stands next ih =>
    rw [List.cons_append, wayFrom_cons_of_name entry.notNeutral entry.notAbove, stands]
    have hnext := ih hl
    rw [List.append_assoc] at hnext
    exact List.mem_cons_of_mem _ hnext

/-- The directory is one that names lead to. -/
theorem Enters.reaches (h : Enters fs links steps here front links' steps' dir)
    (hhere : Reaches fs here) (hslash : ∀ segment ∈ front, '/' ∉ segment.toList) :
    Reaches fs dir := by
  induction h with
  | here => exact hhere
  | stay neutral next ih => exact ih hhere fun s hs => hslash s (List.mem_cons_of_mem _ hs)
  | up next ih => exact ih hhere.dropLast fun s hs => hslash s (List.mem_cons_of_mem _ hs)
  | down entry short stands next ih =>
    have isName : IsName _ := ⟨hslash _ (List.mem_cons_self ..), entry.notNeutral, entry.notAbove⟩
    exact ih (hhere.down isName stands) fun s hs => hslash s (List.mem_cons_of_mem _ hs)
  | through entry short stands next ih =>
    exact ih (hhere.start _) (Path.forall_segments_append _ (List.forall_mem_cons.1 hslash).2)

end Enters

/-! ## A moved link -/

/-- Where the path of a link is followed from that stands at a place. -/
def linkStart (there : Location) (goal : String) : Location :=
  if Path.isAbsolute goal then [] else there.dropLast

/-- A file system in which what leads on stood in another one, too, but for a link at one place. -/
structure Relinked (fs fs' : FileSystem) (there : Location) (goal : String) : Prop where
  directory : ∀ l mode, fs'.node? l = some (.directory mode) →
    ∃ mode', fs.node? l = some (.directory mode')
  link : ∀ l target, fs'.node? l = some (.link target) →
    fs.node? l = some (.link target) ∨ l = there ∧ target = goal

/-- A file system in which nothing new leads on, and then a link was put at a place. -/
theorem Ended.relinked (h : Ended fs fs') (there : Location) (goal : String) :
    Relinked fs (fs'.putNode there (.link goal)) there goal := by
  have hnode (l : Location) : (fs'.putNode there (.link goal)).node? l = fs'.node? l
      ∨ l = there ∧ (fs'.putNode there (.link goal)).node? l = some (.link goal) := by
    rw [node?_putNode_eq]
    split
    case isTrue hl => exact .inr ⟨hl.1, rfl⟩
    case isFalse => exact .inl rfl
  refine ⟨fun l mode hl => ?_, fun l target hl => ?_⟩
  · rcases hnode l with hsame | ⟨-, hlink⟩
    · exact h.directory l mode (hsame.symm.trans hl)
    · cases hlink.symm.trans hl
  · rcases hnode l with hsame | ⟨heq, hlink⟩
    · exact .inl (h.link l target (hsame.symm.trans hl))
    · cases hlink.symm.trans hl
      exact .inr ⟨heq, rfl⟩

/-- What follows a name stays at given places if it does behind what stood there before, and behind
the link. -/
theorem Relinked.wayFrom_cons (h : Relinked fs fs' there goal) {links steps : Nat}
    {here : Location} {segment : String} {rest : List String} (hentry : IsEntry segment)
    (hplace : here ++ [segment] ∈ places)
    (hgoal : ∀ links' < links, ∀ steps', ∀ l ∈ fs'.wayFrom links' steps' (linkStart there goal)
      (Path.segments goal ++ rest), l ∈ places)
    (hdown : ∀ mode, fs.node? (here ++ [segment]) = some (.directory mode) →
      ∀ steps', steps = steps' + 1 →
        ∀ l ∈ fs'.wayFrom links steps' (here ++ [segment]) rest, l ∈ places)
    (hthrough : ∀ target, fs.node? (here ++ [segment]) = some (.link target) →
      ∀ links' steps', links = links' + 1 → steps = steps' + 1 →
        ∀ l ∈ fs'.wayFrom links' steps' (if Path.isAbsolute target then [] else here)
          (Path.segments target ++ rest), l ∈ places) :
    ∀ l ∈ fs'.wayFrom links steps here (segment :: rest), l ∈ places := by
  cases steps with
  | zero => exact List.forall_mem_nil _
  | succ steps =>
    rw [wayFrom_cons_of_name hentry.notNeutral hentry.notAbove]
    refine List.forall_mem_cons.2 ⟨hplace, ?_⟩
    cases hstands : fs'.node? (here ++ [segment]) with
    | none => exact List.forall_mem_nil _
    | some node =>
      cases node with
      | file id => exact List.forall_mem_nil _
      | directory mode =>
        obtain ⟨mode', hstood⟩ := h.directory _ mode hstands
        exact hdown mode' hstood steps rfl
      | link target =>
        cases links with
        | zero => exact List.forall_mem_nil _
        | succ links =>
          -- a link that stands now stood there before, or is the one that was moved
          rcases h.link _ target hstands with hstood | ⟨hthere, rfl⟩
          · exact hthrough target hstood links steps rfl rfl
          · have hfrom := hgoal links (Nat.lt_succ_self _) steps
            rw [linkStart, ← hthere, List.dropLast_concat] at hfrom
            exact hfrom

/-- Nothing follows a name at which no directory and no link stood, but what follows the link. -/
theorem Relinked.wayFrom_end (h : Relinked fs fs' there goal) {links steps : Nat}
    {here : Location} {segment : String} {rest : List String} (hentry : IsEntry segment)
    (hplace : here ++ [segment] ∈ places)
    (hgoal : ∀ links' < links, ∀ steps', ∀ l ∈ fs'.wayFrom links' steps' (linkStart there goal)
      (Path.segments goal ++ rest), l ∈ places)
    (hends : ∀ node, fs.node? (here ++ [segment]) = some node → ∃ id, node = .file id) :
    ∀ l ∈ fs'.wayFrom links steps here (segment :: rest), l ∈ places := by
  refine h.wayFrom_cons hentry hplace hgoal (fun mode hstood => ?_) (fun target hstood => ?_)
  · obtain ⟨id, hid⟩ := hends _ hstood
    cases hid
  · obtain ⟨id, hid⟩ := hends _ hstood
    cases hid

/-- The path of the moved link stays at the places that it went over before. It led to a file, or to
where one could be created, so it stops there, whatever follows; only at the moved link it begins
again, with fewer links left. -/
theorem Relinked.wayFrom_goal (h : Relinked fs fs' there goal) {links steps : Nat}
    {here : Location} {segments : List String} {target : Target}
    (hleads : Leads fs .create links steps here segments target) (hhere : Reaches fs here)
    (hslash : ∀ segment ∈ segments, '/' ∉ segment.toList)
    (hfile : ∀ l mode slash, target ≠ .found l (.directory mode) slash)
    (hway : ∀ l ∈ fs.wayFrom links steps here segments, l ∈ places) {links' : Nat}
    {rest : List String} (hgoal : ∀ links'' < links', ∀ steps' rest',
      ∀ l ∈ fs'.wayFrom links'' steps' (linkStart there goal) (Path.segments goal ++ rest'),
        l ∈ places) (steps' : Nat) :
    ∀ l ∈ fs'.wayFrom links' steps' here (segments ++ rest), l ∈ places := by
  -- the induction is on the way that the path had before
  induction hleads generalizing links' steps' with
  | arrive stands =>
    obtain ⟨mode, hmode⟩ := hhere.isDirectory
    cases stands.symm.trans hmode
    exact absurd rfl (hfile _ _ _)
  | stay neutral next ih =>
    rw [wayFrom_cons_of_neutral neutral] at hway
    cases steps' with
    | zero => exact List.forall_mem_nil _
    | succ steps' =>
      rw [List.cons_append, wayFrom_cons_of_neutral neutral]
      exact ih hhere (List.forall_mem_cons.1 hslash).2 hfile hway hgoal steps'
  | up next ih =>
    rw [wayFrom_cons_above] at hway
    cases steps' with
    | zero => exact List.forall_mem_nil _
    | succ steps' =>
      rw [List.cons_append, wayFrom_cons_above]
      exact ih hhere.dropLast (List.forall_mem_cons.1 hslash).2 hfile hway hgoal steps'
  | vacant lookedUp stands final =>
    rw [wayFrom_cons_of_name lookedUp.notNeutral lookedUp.notAbove] at hway
    refine h.wayFrom_end lookedUp.isEntry (hway _ (List.mem_cons_self ..))
      (fun j hj steps'' => hgoal j hj steps'' _) (fun node hstood => ?_)
    cases stands.symm.trans hstood
  | directory lookedUp stands final => exact absurd rfl (hfile _ _ _)
  | down lookedUp stands final next ih =>
    rw [wayFrom_cons_of_name lookedUp.notNeutral lookedUp.notAbove, stands] at hway
    refine h.wayFrom_cons lookedUp.isEntry (hway _ (List.mem_cons_self ..))
      (fun j hj steps'' => hgoal j hj steps'' _) (fun _ _ steps'' _ => ?_) (fun _ hstood => ?_)
    · exact ih (hhere.down (lookedUp.isName hslash) stands) (List.forall_mem_cons.1 hslash).2 hfile
        (List.forall_mem_cons.1 hway).2 hgoal steps''
    · cases stands.symm.trans hstood
  | file lookedUp stands slash =>
    rw [wayFrom_cons_of_name lookedUp.notNeutral lookedUp.notAbove] at hway
    refine h.wayFrom_end lookedUp.isEntry (hway _ (List.mem_cons_self ..))
      (fun j hj steps'' => hgoal j hj steps'' _) (fun node hstood => ?_)
    cases stands.symm.trans hstood
    exact ⟨_, rfl⟩
  | link lookedUp stands itself =>
    rw [decide_eq_false (by decide), Bool.and_false] at itself
    contradiction
  | @through _ _ here _ _ _ target lookedUp stands itself next ih =>
    rw [wayFrom_cons_of_name lookedUp.notNeutral lookedUp.notAbove, stands] at hway
    refine h.wayFrom_cons lookedUp.isEntry (hway _ (List.mem_cons_self ..))
      (fun j hj steps'' => hgoal j hj steps'' _) (fun _ hstood => ?_)
      (fun target' hstood j steps'' hj _ => ?_)
    · cases stands.symm.trans hstood
    · cases stands.symm.trans hstood
      subst hj
      rw [List.append_eq, ← List.append_assoc]
      exact ih (hhere.start target)
        (Path.forall_segments_append target (List.forall_mem_cons.1 hslash).2) hfile
        (List.forall_mem_cons.1 hway).2 (fun i hi => hgoal i (Nat.lt_succ_of_lt hi)) steps''

/-- The moved link leads to no new places, however many links are left to follow. -/
theorem Relinked.forall_wayFrom_goal (h : Relinked fs fs' there goal) {links steps : Nat}
    {target : Target}
    (hleads : Leads fs .create links steps (linkStart there goal) (Path.segments goal) target)
    (hthere : Reaches fs there.dropLast)
    (hfile : ∀ l mode slash, target ≠ .found l (.directory mode) slash)
    (hway : ∀ l ∈ fs.wayFrom links steps (linkStart there goal) (Path.segments goal), l ∈ places)
    (links' steps' : Nat) (rest : List String) :
    ∀ l ∈ fs'.wayFrom links' steps' (linkStart there goal) (Path.segments goal ++ rest),
      l ∈ places := by
  have hstart : Reaches fs (linkStart there goal) := hthere.start goal
  induction links' using Nat.strongRecOn generalizing steps' rest with
  | _ links' ih =>
    exact h.wayFrom_goal hleads hstart (fun s hs => Path.not_mem_of_mem_segments hs) hfile hway
      (fun j hj steps'' rest' => ih j hj steps'' rest') steps'

/-- A path that stayed at places stays there. -/
theorem Relinked.wayFrom_subset (h : Relinked fs fs' there goal)
    (hgoal : ∀ links steps rest, ∀ l ∈ fs'.wayFrom links steps (linkStart there goal)
      (Path.segments goal ++ rest), l ∈ places) {links steps : Nat} {here : Location}
    {segments : List String} (hway : ∀ l ∈ fs.wayFrom links steps here segments, l ∈ places) :
    ∀ l ∈ fs'.wayFrom links steps here segments, l ∈ places := by
  induction links, steps, here, segments using segments_induction with
  | nil => rwa [wayFrom_nil] at hway ⊢
  | exhausted => exact List.forall_mem_nil _
  | stay _ _ _ _ _ neutral ih =>
    rw [wayFrom_cons_of_neutral neutral] at hway ⊢
    exact ih hway
  | up _ _ _ _ ih =>
    rw [wayFrom_cons_above] at hway ⊢
    exact ih hway
  | name _ _ _ _ rest neutral above ih =>
    rw [wayFrom_cons_of_name neutral above, List.forall_mem_cons] at hway
    refine h.wayFrom_cons ⟨neutral, above⟩ hway.1 (fun j _ steps' => hgoal j steps' rest) ?_ ?_
    · rintro mode hstood steps' hsteps
      cases hsteps
      rw [hstood] at hway
      exact ih _ _ _ hway.2
    · rintro target hstood j steps' rfl hsteps
      cases hsteps
      rw [hstood] at hway
      exact ih _ _ _ hway.2

/-! ## Paths -/

/-- Characters without slashes behind others belong to the last segment. -/
theorem Path.exists_splitSlash_append (chars : List Char) {ending : List Char}
    (hending : '/' ∉ ending) :
    ∃ init last, splitSlash chars = init ++ [last]
      ∧ splitSlash (chars ++ ending) = init ++ [last ++ ending] := by
  induction chars with
  | nil => exact ⟨[], [], rfl, splitSlash_of_not_mem hending⟩
  | cons c chars ih =>
    obtain ⟨init, last, hchars, hmore⟩ := ih
    rw [List.cons_append, splitSlash, splitSlash, hchars, hmore]
    -- the first segment may be the last one as well
    cases init with
    | nil =>
      by_cases hc : c = '/'
      · exact ⟨[[]], last, if_pos hc, if_pos hc⟩
      · exact ⟨[], c :: last, if_neg hc, if_neg hc⟩
    | cons first init =>
      by_cases hc : c = '/'
      · exact ⟨[] :: first :: init, last, if_pos hc, if_pos hc⟩
      · exact ⟨(c :: first) :: init, last, if_neg hc, if_neg hc⟩

/-- Text without slashes behind a path belongs to its last segment. -/
theorem Path.segments_append {path ending last : String} {front : List String}
    (hpath : segments path = front ++ [last]) (hending : '/' ∉ ending.toList) :
    segments (path ++ ending) = front ++ [last ++ ending] := by
  obtain ⟨init, final, hchars, hmore⟩ := exists_splitSlash_append path.toList hending
  rw [segments, hchars, List.map_append, List.map_singleton] at hpath
  obtain ⟨hfront, hlast⟩ := List.append_inj' hpath rfl
  rw [segments, String.toList_append, hmore, List.map_append, List.map_singleton, hfront,
    String.ofList_append, List.singleton_inj.1 hlast, String.ofList_toList]

/-- What a path names is what stands in the directory under its last name. -/
theorem Enters.eq_of_follow {links steps links' steps' : Nat} {here dir : Location}
    {front : List String} {last : String} {target : Target}
    (h : Enters fs links steps here front links' steps' dir) (isName : IsName last)
    (hleads : Leads fs .entry links steps here (front ++ [last]) target) :
    target = fs.targetAt (dir ++ [last]) := by
  have hfollow := follow_eq_ok_iff.2 hleads
  rw [h.follow_eq isName.isEntry] at hfollow
  exact (follow_eq_ok_iff.1 hfollow).eq_targetAt isName (.inl rfl)

/-- A file is created through a link by its path. -/
theorem Leads.create_through {links steps : Nat} {dir : Location} {last : String} {target : Target}
    (h : Leads fs .create links steps dir [last] target)
    (hlink : fs.node? (dir ++ [last]) = some (.link goal)) (hlast : IsEntry last) :
    ∃ links' steps', Leads fs .create links' steps' (if Path.isAbsolute goal then [] else dir)
        (Path.segments goal) target
      ∧ ∀ l ∈ fs.wayFrom links' steps' (if Path.isAbsolute goal then [] else dir)
          (Path.segments goal), l ∈ fs.wayFrom links steps dir [last] := by
  cases h with
  | stay neutral next => exact absurd neutral (by rw [hlast.notNeutral]; exact nofun)
  | up next => exact absurd rfl hlast.notAbove
  | vacant lookedUp stands final => cases hlink.symm.trans stands
  | directory lookedUp stands final => cases hlink.symm.trans stands
  | down lookedUp stands final next => cases hlink.symm.trans stands
  | file lookedUp stands slash => cases hlink.symm.trans stands
  | link lookedUp stands itself => exact absurd itself (by decide)
  | @through links steps _ _ _ _ _ lookedUp stands itself next =>
    cases hlink.symm.trans stands
    rw [List.append_nil] at next
    refine ⟨links, steps, next, fun l hl => ?_⟩
    rw [wayFrom_cons_of_name hlast.notNeutral hlast.notAbove, hlink]
    dsimp only
    rw [List.append_nil]
    exact List.mem_cons_of_mem _ hl

section Moved

variable {path beside last last' : String} {front : List String} {target target' : Target}
  {location : Location}

/-- If a link is moved to the place of another name in its directory, paths stay where they stayed,
if the path of the link did, and a file could be created by it. -/
theorem Relinked.staysIn (h : Relinked fs fs' there goal) (hcurrent : fs'.current = fs.current)
    (habsolute : Path.isAbsolute path = true) (habsolute' : Path.isAbsolute beside = true)
    (hpath : Path.segments path = front ++ [last])
    (hbeside : Path.segments beside = front ++ [last']) (isName : IsName last)
    (isName' : IsName last') (hthere : fs.resolve .entry path = .ok target)
    (hplace : target = .vacant there false ∨ ∃ node, target = .found there node false)
    (hlink : fs.resolve .entry beside = .ok (.found location (.link goal) false))
    (hcreate : fs.resolve .create beside = .ok target')
    (hfile : ∀ l mode slash, target' ≠ .found l (.directory mode) slash)
    (hstays : fs.StaysIn places beside) {other : String} (hother : fs.StaysIn places other) :
    fs'.StaysIn places other := by
  have hentry' : IsEntry last' := ⟨isName'.notNeutral, isName'.notAbove⟩
  obtain ⟨-, -, -, hleads⟩ := resolve_eq_ok_iff.1 hthere
  obtain ⟨-, -, -, hleadsLink⟩ := resolve_eq_ok_iff.1 hlink
  obtain ⟨-, -, -, hleadsCreate⟩ := resolve_eq_ok_iff.1 hcreate
  rw [if_pos habsolute, hpath] at hleads
  rw [if_pos habsolute', hbeside] at hleadsLink hleadsCreate
  obtain ⟨links, steps, dir, henters⟩ := hleads.enters isName.isEntry
  -- the link stands in the directory of the place to which it is moved
  have hmoved : there = dir ++ [last] := by
    have htarget := henters.eq_of_follow isName hleads
    rw [targetAt] at htarget
    rcases hplace with rfl | ⟨node, rfl⟩ <;> split at htarget <;> cases htarget <;> rfl
  have hstood : fs.node? (dir ++ [last']) = some (.link goal) := by
    have htarget := henters.eq_of_follow isName' hleadsLink
    rw [targetAt] at htarget
    split at htarget
    case h_1 => cases htarget
    case h_2 node hnode =>
      cases htarget
      exact hnode
  have hdir : Reaches fs dir := by
    refine henters.reaches .root fun s hs => ?_
    have hmem : s ∈ Path.segments path := hpath ▸ List.mem_append_left _ hs
    exact Path.not_mem_of_mem_segments hmem
  -- so its path goes on from there when a file is created by it
  have hfollow := follow_eq_ok_iff.2 hleadsCreate
  rw [henters.follow_eq hentry'] at hfollow
  obtain ⟨links', steps', hgoal, hway⟩ :=
    (follow_eq_ok_iff.1 hfollow).create_through hstood hentry'
  have hstart : linkStart there goal = if Path.isAbsolute goal then [] else dir := by
    rw [linkStart, hmoved, List.dropLast_concat]
  rw [← hstart] at hgoal hway
  have hdirectory : Reaches fs there.dropLast := by
    rw [hmoved, List.dropLast_concat]
    exact hdir
  have hplaces : ∀ l ∈ fs.wayFrom links' steps' (linkStart there goal) (Path.segments goal),
      l ∈ places := by
    intro l hl
    refine hstays l ?_
    rw [way, if_pos habsolute', hbeside]
    exact henters.wayFrom_subset (hway l hl)
  rw [StaysIn, way, hcurrent]
  exact h.wayFrom_subset (h.forall_wayFrom_goal hgoal hdirectory hfile hplaces) hother

end Moved

end Reline.FileSystem
