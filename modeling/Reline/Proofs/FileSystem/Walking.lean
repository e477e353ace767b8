/-
  Reline.Proofs.FileSystem.Walking

  Where names lead if nothing is missing.

  A walk steps from place to place, one for each name; only links lead it
  elsewhere. It does not ask whether anything stands at a place that it steps to,
  and so it finds the place that a path leads to as well as the one that it would
  lead to if the missing directories were there. What creates no link and removes
  none leaves all walks as they are. Below a place without links a walk along
  names goes straight down.

  Main statements: `Leads.walks`, `Walks.eq_append`.
-/

import Reline.Proofs.FileSystem.Relinking

namespace Reline.FileSystem

variable {fs fs' : FileSystem} {purpose : Purpose}

/-- Whether segments lead from one place to another, past whatever stands there but links. -/
inductive Walks (fs : FileSystem) : Location → List String → Location → Prop where
  /-- Nothing is left to follow. -/
  | here {here : Location} : Walks fs here [] here
  /-- A neutral segment names nothing. -/
  | stay {here there : Location} {segment : String} {rest : List String}
    (neutral : Path.isNeutral segment = true) (next : Walks fs here rest there) :
    Walks fs here (segment :: rest) there
  /-- Two dots name the directory above. -/
  | up {here there : Location} {rest : List String} (next : Walks fs here.dropLast rest there) :
    Walks fs here (".." :: rest) there
  /-- A name leads on, whether or not anything has it. -/
  | down {here there : Location} {segment : String} {rest : List String}
    (entry : IsEntry segment) (stands : ∀ goal, fs.node? (here ++ [segment]) ≠ some (.link goal))
    (next : Walks fs (here ++ [segment]) rest there) : Walks fs here (segment :: rest) there
  /-- The path of a link comes before the other segments. -/
  | through {here there : Location} {segment goal : String} {rest : List String}
    (entry : IsEntry segment) (stands : fs.node? (here ++ [segment]) = some (.link goal))
    (next : Walks fs (if Path.isAbsolute goal then [] else here) (Path.segments goal ++ rest)
      there) :
    Walks fs here (segment :: rest) there

/-- The segments that name something. -/
def namesOf (segments : List String) : List String :=
  segments.filter fun segment => !Path.isNeutral segment

theorem namesOf_append (front back : List String) :
    namesOf (front ++ back) = namesOf front ++ namesOf back :=
  List.filter_append ..

theorem namesOf_cons_of_neutral {segment : String} (h : Path.isNeutral segment = true)
    (rest : List String) : namesOf (segment :: rest) = namesOf rest :=
  List.filter_cons_of_neg (by rw [h]; exact Bool.false_ne_true)

theorem namesOf_cons_of_entry {segment : String} (h : Path.isNeutral segment = false)
    (rest : List String) : namesOf (segment :: rest) = segment :: namesOf rest :=
  List.filter_cons_of_pos (by rw [h]; rfl)

variable {here there : Location} {segments : List String}

/-- Segments that name nothing lead nowhere else. -/
theorem walks_of_namesOf_nil (h : namesOf segments = []) : Walks fs here segments here := by
  induction segments with
  | nil => exact .here
  | cons segment rest ih =>
    cases hneutral : Path.isNeutral segment with
    | true => exact .stay hneutral (ih (namesOf_cons_of_neutral hneutral rest ▸ h))
    | false =>
      rw [namesOf_cons_of_entry hneutral] at h
      contradiction

/-- Only the names of segments matter. -/
theorem Walks.of_namesOf (h : Walks fs here segments there) {segments' : List String}
    (hnames : namesOf segments' = namesOf segments) : Walks fs here segments' there := by
  -- in front of the next name there may be neutral segments
  have hskip {here there : Location} {name : String} {rest : List String}
      (hname : Path.isNeutral name = false)
      (hstep : ∀ rest', namesOf rest' = namesOf rest → Walks fs here (name :: rest') there) :
      ∀ segments', namesOf segments' = namesOf (name :: rest) → Walks fs here segments' there := by
    intro segments' hnames
    rw [namesOf_cons_of_entry hname] at hnames
    induction segments' with
    | nil => contradiction
    | cons segment rest' ih =>
      cases hneutral : Path.isNeutral segment with
      | true => exact .stay hneutral (ih (namesOf_cons_of_neutral hneutral rest' ▸ hnames))
      | false =>
        rw [namesOf_cons_of_entry hneutral, List.cons.injEq] at hnames
        obtain ⟨rfl, hrest⟩ := hnames
        exact hstep rest' hrest
  induction h generalizing segments' with
  | here => exact walks_of_namesOf_nil hnames
  | stay neutral next ih => exact ih (hnames.trans (namesOf_cons_of_neutral neutral _))
  | up next ih => exact hskip (by decide) (fun rest' hrest => .up (ih hrest)) _ hnames
  | down entry stands next ih =>
    exact hskip entry.notNeutral (fun rest' hrest => .down entry stands (ih hrest)) _ hnames
  | through entry stands next ih =>
    refine hskip entry.notNeutral (fun rest' hrest => .through entry stands (ih ?_)) _ hnames
    rw [namesOf_append, namesOf_append, hrest]

/-- A walk along some segments and then others passes a place in between. -/
theorem Walks.split {front back : List String} (h : Walks fs here (front ++ back) there) :
    ∃ middle, Walks fs here front middle ∧ Walks fs middle back there := by
  generalize hsegments : front ++ back = segments at h
  induction h generalizing front with
  | here =>
    obtain ⟨rfl, rfl⟩ := List.append_eq_nil_iff.1 hsegments
    exact ⟨_, .here, .here⟩
  | stay neutral next ih =>
    rcases List.append_eq_cons_iff.1 hsegments with ⟨rfl, rfl⟩ | ⟨front, rfl, hrest⟩
    · exact ⟨_, .here, .stay neutral next⟩
    · obtain ⟨middle, hfront, hback⟩ := ih hrest.symm
      exact ⟨middle, .stay neutral hfront, hback⟩
  | up next ih =>
    rcases List.append_eq_cons_iff.1 hsegments with ⟨rfl, rfl⟩ | ⟨front, rfl, hrest⟩
    · exact ⟨_, .here, .up next⟩
    · obtain ⟨middle, hfront, hback⟩ := ih hrest.symm
      exact ⟨middle, .up hfront, hback⟩
  | down entry stands next ih =>
    rcases List.append_eq_cons_iff.1 hsegments with ⟨rfl, rfl⟩ | ⟨front, rfl, hrest⟩
    · exact ⟨_, .here, .down entry stands next⟩
    · obtain ⟨middle, hfront, hback⟩ := ih hrest.symm
      exact ⟨middle, .down entry stands hfront, hback⟩
  | through entry stands next ih =>
    rcases List.append_eq_cons_iff.1 hsegments with ⟨rfl, rfl⟩ | ⟨front, rfl, rfl⟩
    · exact ⟨_, .here, .through entry stands next⟩
    · -- what the link leads over belongs to the front
      obtain ⟨middle, hfront, hback⟩ := ih (List.append_assoc ..)
      exact ⟨middle, .through entry stands hfront, hback⟩

/-- Segments lead to one place only. -/
theorem Walks.unique (h : Walks fs here segments there) {there' : Location}
    (h' : Walks fs here segments there') : there' = there := by
  -- what the segment is, and whether a link stands there, decides the step
  induction h with
  | here =>
    cases h'
    rfl
  | stay neutral next ih =>
    cases h' with
    | stay _ next' => exact ih next'
    | up _ => contradiction
    | down entry => exact absurd (neutral.symm.trans entry.notNeutral) nofun
    | through entry => exact absurd (neutral.symm.trans entry.notNeutral) nofun
  | up next ih =>
    cases h' with
    | stay neutral' _ => contradiction
    | up next' => exact ih next'
    | down entry => exact absurd rfl entry.notAbove
    | through entry => exact absurd rfl entry.notAbove
  | down entry stands next ih =>
    cases h' with
    | stay neutral' _ => exact absurd (neutral'.symm.trans entry.notNeutral) nofun
    | up _ => exact absurd rfl entry.notAbove
    | down _ _ next' => exact ih next'
    | through _ stands' _ => exact absurd stands' (stands _)
  | through entry stands next ih =>
    cases h' with
    | stay neutral' _ => exact absurd (neutral'.symm.trans entry.notNeutral) nofun
    | up _ => exact absurd rfl entry.notAbove
    | down _ stands' _ => exact absurd stands (stands' _)
    | through _ stands' next' =>
      cases stands.symm.trans stands'
      exact ih next'

/-- Whether the same links stand in two file systems. -/
def SameLinks (fs fs' : FileSystem) : Prop :=
  ∀ l goal, fs'.node? l = some (.link goal) ↔ fs.node? l = some (.link goal)

/-- Where the links are the same, so are the walks. -/
theorem SameLinks.walks_iff (h : SameLinks fs fs') :
    Walks fs' here segments there ↔ Walks fs here segments there := by
  have hmono {fs fs' : FileSystem} (h : SameLinks fs fs') {here there : Location}
      {segments : List String} (hwalks : Walks fs here segments there) :
      Walks fs' here segments there := by
    induction hwalks with
    | here => exact .here
    | stay neutral next ih => exact .stay neutral ih
    | up next ih => exact .up ih
    | down entry stands next ih =>
      exact .down entry (fun goal hlink => stands goal ((h _ _).1 hlink)) ih
    | through entry stands next ih => exact .through entry ((h _ _).2 stands) ih
  exact ⟨hmono fun l goal => (h l goal).symm, hmono h⟩

/-- Whether no link stands at a place or below it. -/
def NoLinksFrom (fs : FileSystem) (root : Location) : Prop :=
  ∀ l goal, root <+: l → fs.node? l ≠ some (.link goal)

/-- Below a place without links, names lead straight down. -/
theorem Walks.eq_append (h : Walks fs here segments there) {root : Location}
    (hroot : NoLinksFrom fs root) (hhere : root <+: here)
    (hentries : ∀ segment ∈ segments, IsEntry segment) : there = here ++ segments := by
  induction h with
  | here => exact (List.append_nil _).symm
  | stay neutral next ih =>
    have hentry := hentries _ (List.mem_cons_self ..)
    exact absurd (neutral.symm.trans hentry.notNeutral) nofun
  | up next ih => exact absurd rfl (hentries _ (List.mem_cons_self ..)).notAbove
  | @down here there segment rest entry stands next ih =>
    have hdown : root <+: here ++ [segment] := hhere.trans (List.prefix_append ..)
    rw [ih hdown fun s hs => hentries s (List.mem_cons_of_mem _ hs), List.append_assoc]
    rfl
  | through entry stands next ih =>
    exact absurd stands (hroot _ _ (hhere.trans (List.prefix_append ..)))

/-! ## Paths -/

/-- Whether only empty segments are left. -/
theorem namesOf_of_isFinal (h : isFinal segments = true) : namesOf segments = [] := by
  refine List.filter_eq_nil_iff.2 fun segment hsegment => ?_
  have hempty : segment = "" := by simpa using List.all_eq_true.1 h segment hsegment
  subst hempty
  decide

/-- What segments lead to is where they walk to, unless it is a link. -/
theorem Leads.walks {links steps : Nat} {target : Target}
    (h : Leads fs purpose links steps here segments target)
    (htarget : (∃ node slash, target = .found there node slash ∧ ∀ goal, node ≠ .link goal)
      ∨ ∃ slash, target = .vacant there slash) : Walks fs here segments there := by
  have hlast {here : Location} {segment : String} {rest : List String}
      (lookedUp : IsLookedUp purpose segment rest)
      (stands : ∀ goal, fs.node? (here ++ [segment]) ≠ some (.link goal))
      (hrest : namesOf rest = []) : Walks fs here (segment :: rest) (here ++ [segment]) :=
    .down lookedUp.isEntry stands (walks_of_namesOf_nil hrest)
  -- the last name is walked to, and empty segments behind it lead nowhere else
  induction h with
  | arrive stands =>
    rcases htarget with ⟨node, slash, heq, -⟩ | ⟨slash, heq⟩
    · cases heq
      exact .here
    · contradiction
  | stay neutral next ih => exact .stay neutral (ih htarget)
  | up next ih => exact .up (ih htarget)
  | vacant lookedUp stands final =>
    rcases htarget with ⟨node, slash, heq, -⟩ | ⟨slash, heq⟩
    · contradiction
    · cases heq
      exact hlast lookedUp (by rw [stands]; exact nofun) (namesOf_of_isFinal final)
  | directory lookedUp stands final =>
    rcases htarget with ⟨node, slash, heq, -⟩ | ⟨slash, heq⟩
    · cases heq
      exact hlast lookedUp (by rw [stands]; exact nofun) (namesOf_of_isFinal final)
    · contradiction
  | down lookedUp stands final next ih =>
    exact .down lookedUp.isEntry (by rw [stands]; exact nofun) (ih htarget)
  | @file links steps here segment rest id lookedUp stands slash =>
    rcases htarget with ⟨node, slash', heq, -⟩ | ⟨slash', heq⟩
    · cases heq
      exact hlast lookedUp (by rw [stands]; exact nofun)
        (namesOf_of_isFinal (isFinal_of_slash slash))
    · contradiction
  | link lookedUp stands itself =>
    rcases htarget with ⟨node, slash, heq, hlink⟩ | ⟨slash, heq⟩
    · cases heq
      exact absurd rfl (hlink _)
    · contradiction
  | through lookedUp stands itself next ih => exact .through lookedUp.isEntry stands (ih htarget)

/-- Where a path is followed from. -/
def startOf (fs : FileSystem) (path : String) : Location :=
  if Path.isAbsolute path then [] else fs.current

/-- The place that a path leads to, or would lead to if the missing directories were there. -/
def WalksTo (fs : FileSystem) (path : String) (there : Location) : Prop :=
  Walks fs (fs.startOf path) (Path.names path) there

theorem walksTo_of_resolve {path : String} {target : Target}
    (h : fs.resolve purpose path = .ok target)
    (htarget : (∃ node slash, target = .found there node slash ∧ ∀ goal, node ≠ .link goal)
      ∨ ∃ slash, target = .vacant there slash) : WalksTo fs path there := by
  obtain ⟨-, -, -, hleads⟩ := resolve_eq_ok_iff.1 h
  refine (hleads.walks htarget).of_namesOf (List.filter_eq_self.2 fun name hname => ?_)
  exact (List.mem_filter.1 hname).2

theorem walksTo_of_file {path : String} {there : Location} {id : FileId} {slash : Bool}
    (h : fs.resolve purpose path = .ok (.found there (.file id) slash)) : fs.WalksTo path there :=
  walksTo_of_resolve h (.inl ⟨_, slash, rfl, nofun⟩)

/-- A file is created at the place that its path leads to. -/
theorem Creates.walksTo {path : String} {location : Location} {id : FileId}
    (h : Creates fs fs' path location id) : fs.WalksTo path location := by
  rcases h.leads with ⟨⟨slash, hfound⟩, -⟩ | ⟨⟨slash, hvacant⟩, -⟩
  · exact walksTo_of_file hfound
  · exact walksTo_of_resolve hvacant (.inr ⟨slash, rfl⟩)

end Reline.FileSystem
