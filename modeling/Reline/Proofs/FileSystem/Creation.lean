/-
  Reline.Proofs.FileSystem.Creation

  Where paths lead after a file was created.

  Creating a file puts it at the place that a path leads to, through links if
  need be. A path that leads somewhere afterwards led there before, unless it
  leads to the new file: then its place was vacant. The path that named the file
  to be created finds it, and if no link stands at the end of that path, so does
  whoever removes or moves what the path names.
-/

import Reline.Proofs.FileSystem.Operations

namespace Reline.FileSystem

variable {fs fs' : FileSystem} {purpose : Purpose} {location : Location} {id : FileId}

/-! ## Purposes -/

/-- A segment that is looked up for any purpose is looked up by those that create nothing. -/
theorem IsLookedUp.of_ne_create {segment : String} {rest : List String} (purpose' : Purpose)
    (h : IsLookedUp purpose segment rest) (hne : purpose' ≠ .create) :
    IsLookedUp purpose' segment rest where
  notNeutral := h.notNeutral
  notAbove := h.notAbove
  notCreated := by rw [decide_eq_false hne, Bool.and_false]
  short := h.short

/-- What is found to be created or emptied is found to be used. -/
theorem Leads.inspect_of_create {links steps : Nat} {here : Location} {segments : List String}
    {target : Target} (h : Leads fs .create links steps here segments target) :
    Leads fs .inspect links steps here segments target := by
  have hcreate : decide (Purpose.create = .entry) = false := rfl
  have hinspect : decide (Purpose.inspect = .entry) = false := rfl
  induction h with
  | arrive stands => exact .arrive stands
  | stay neutral next ih => exact .stay neutral ih
  | up next ih => exact .up ih
  | vacant lookedUp stands final => exact .vacant (lookedUp.of_ne_create _ nofun) stands final
  | directory lookedUp stands final => exact .directory (lookedUp.of_ne_create _ nofun) stands final
  | down lookedUp stands final next ih =>
    exact .down (lookedUp.of_ne_create _ nofun) stands final ih
  | file lookedUp stands slash => exact .file (lookedUp.of_ne_create _ nofun) stands slash
  | link lookedUp stands itself =>
    rw [hcreate, Bool.and_false] at itself
    contradiction
  | through lookedUp stands itself next ih =>
    exact .through (lookedUp.of_ne_create _ nofun) stands itself ih

/-- What is found to be created or emptied is named by the path, or a link is. -/
theorem Leads.entry_of_create {links steps : Nat} {here : Location} {segments : List String}
    {target : Target} (h : Leads fs .create links steps here segments target) :
    (∃ there goal slash,
        Leads fs .entry links steps here segments (.found there (.link goal) slash))
      ∨ Leads fs .entry links steps here segments target := by
  have hcreate : decide (Purpose.create = .entry) = false := rfl
  have hentry : decide (Purpose.entry = .entry) = true := rfl
  induction h with
  | arrive stands => exact .inr (.arrive stands)
  | stay neutral next ih =>
    exact ih.imp (fun ⟨there, goal, slash, hlink⟩ => ⟨there, goal, slash, .stay neutral hlink⟩)
      (.stay neutral)
  | up next ih =>
    exact ih.imp (fun ⟨there, goal, slash, hlink⟩ => ⟨there, goal, slash, .up hlink⟩) .up
  | vacant lookedUp stands final =>
    exact .inr (.vacant (lookedUp.of_ne_create _ nofun) stands final)
  | directory lookedUp stands final =>
    exact .inr (.directory (lookedUp.of_ne_create _ nofun) stands final)
  | down lookedUp stands final next ih =>
    have hlooked := lookedUp.of_ne_create .entry nofun
    exact ih.imp
      (fun ⟨there, goal, slash, hlink⟩ => ⟨there, goal, slash, .down hlooked stands final hlink⟩)
      (.down hlooked stands final)
  | file lookedUp stands slash =>
    -- without a link at the end no slash follows the name, which does for any purpose
    rw [hcreate, Bool.and_false, Bool.not_false, Bool.and_true] at slash
    exact .inr (.file (lookedUp.of_ne_create _ nofun) stands (by rw [slash, Bool.false_and]))
  | link lookedUp stands itself =>
    rw [hcreate, Bool.and_false] at itself
    contradiction
  | @through links steps here segment rest target goal lookedUp stands itself next ih =>
    have hlooked := lookedUp.of_ne_create .entry nofun
    -- the link is what the path names exactly if its name is the last one
    cases hfinal : isFinal rest with
    | true =>
      exact .inl ⟨_, goal, _, .link hlooked stands (by rw [hfinal, hentry]; rfl)⟩
    | false =>
      have hitself : (isFinal rest && decide (Purpose.entry = .entry)) = false := by
        rw [hfinal]
        rfl
      exact ih.imp
        (fun ⟨there, goal', slash, hlink⟩ =>
          ⟨there, goal', slash, .through hlooked stands hitself hlink⟩)
        (.through hlooked stands hitself)

/-- No slash follows the name of a file that can be created. -/
theorem Leads.slash_of_create {links steps : Nat} {here : Location} {segments : List String}
    {slash : Bool} (h : Leads fs .create links steps here segments (.vacant location slash)) :
    slash = false := by
  generalize htarget : Target.vacant location slash = target at h
  induction h with
  | arrive => contradiction
  | stay neutral next ih => exact ih htarget
  | up next ih => exact ih htarget
  | vacant lookedUp stands final =>
    cases htarget
    have hcreated := lookedUp.notCreated
    rw [final, Bool.true_and, decide_eq_true rfl, Bool.and_true] at hcreated
    exact hcreated
  | directory => contradiction
  | down lookedUp stands final next ih => exact ih htarget
  | file => contradiction
  | link => contradiction
  | through lookedUp stands itself next ih => exact ih htarget

/-- The path of a file that can be created or emptied names it, or it names a link. -/
theorem resolve_entry_of_create {path : String} {target : Target}
    (h : fs.resolve .create path = .ok target) :
    (∃ there goal slash, fs.resolve .entry path = .ok (.found there (.link goal) slash))
      ∨ fs.resolve .entry path = .ok target := by
  obtain ⟨hnul, hempty, hshort, hleads⟩ := resolve_eq_ok_iff.1 h
  refine hleads.entry_of_create.imp ?_ ?_
  · rintro ⟨there, goal, slash, hlink⟩
    exact ⟨there, goal, slash, resolve_eq_ok_iff.2 ⟨hnul, hempty, hshort, hlink⟩⟩
  · intro htarget
    exact resolve_eq_ok_iff.2 ⟨hnul, hempty, hshort, htarget⟩

/-! ## A new file -/

/-- A file system in which a file stands at a place, where it stood before or nothing did. -/
structure Filled (fs fs' : FileSystem) (location : Location) (id : FileId) : Prop where
  before : fs.node? location = none ∨ fs.node? location = some (.file id)
  after : ∀ l, fs'.node? l = if l = location then some (.file id) else fs.node? l
  current : fs'.current = fs.current

/-- What stood somewhere still stands there. -/
theorem Filled.node?_eq (h : Filled fs fs' location id) {l : Location} {node : Node}
    (hnode : fs.node? l = some node) : fs'.node? l = some node := by
  rw [h.after]
  split
  case isTrue heq =>
    subst heq
    rcases h.before with hnone | hfile
    · rw [hnone] at hnode
      contradiction
    · exact hfile.symm.trans hnode
  case isFalse => exact hnode

theorem Filled.node?_location (h : Filled fs fs' location id) :
    fs'.node? location = some (.file id) := by
  rw [h.after, if_pos rfl]

/-- What stands somewhere stood there before, unless it is the new file. -/
theorem Filled.node?_before (h : Filled fs fs' location id) {l : Location} {node : Node}
    (hnode : fs'.node? l = some node) :
    fs.node? l = some node ∨ l = location ∧ node = .file id ∧ fs.node? l = none := by
  rw [h.after] at hnode
  split at hnode
  case isTrue heq =>
    subst heq
    cases hnode
    rcases h.before with hnone | hfile
    · exact .inr ⟨rfl, rfl, hnone⟩
    · exact .inl hfile
  case isFalse => exact .inl hnode

/-- A path that leads to something still does. -/
theorem Filled.leads_found (h : Filled fs fs' location id) {links steps : Nat} {here l : Location}
    {segments : List String} {node : Node} {slash : Bool}
    (hleads : Leads fs purpose links steps here segments (.found l node slash)) :
    Leads fs' purpose links steps here segments (.found l node slash) := by
  generalize htarget : Target.found l node slash = target at hleads
  induction hleads with
  | arrive stands => exact .arrive (h.node?_eq stands)
  | stay neutral next ih => exact .stay neutral (ih htarget)
  | up next ih => exact .up (ih htarget)
  | vacant => contradiction
  | directory lookedUp stands final => exact .directory lookedUp (h.node?_eq stands) final
  | down lookedUp stands final next ih =>
    exact .down lookedUp (h.node?_eq stands) final (ih htarget)
  | file lookedUp stands slash => exact .file lookedUp (h.node?_eq stands) slash
  | link lookedUp stands itself => exact .link lookedUp (h.node?_eq stands) itself
  | through lookedUp stands itself next ih =>
    exact .through lookedUp (h.node?_eq stands) itself (ih htarget)

/-- A path that led to the vacant place leads to the new file. -/
theorem Filled.leads_vacant (h : Filled fs fs' location id) {links steps : Nat} {here : Location}
    {segments : List String}
    (hleads : Leads fs purpose links steps here segments (.vacant location false)) :
    Leads fs' purpose links steps here segments (.found location (.file id) false) := by
  generalize htarget : Target.vacant location false = target at hleads
  induction hleads with
  | arrive => contradiction
  | stay neutral next ih => exact .stay neutral (ih htarget)
  | up next ih => exact .up (ih htarget)
  | @vacant links steps here segment rest lookedUp stands final =>
    rw [Target.vacant.injEq] at htarget
    obtain ⟨rfl, hrest⟩ := htarget
    have hfile : Leads fs' purpose links (steps + 1) here (segment :: rest)
        (.found (here ++ [segment]) (.file id) (!rest.isEmpty)) :=
      .file lookedUp h.node?_location (by rw [← hrest, Bool.false_and])
    rw [← hrest] at hfile
    exact hfile
  | directory => contradiction
  | down lookedUp stands final next ih =>
    exact .down lookedUp (h.node?_eq stands) final (ih htarget)
  | file => contradiction
  | link => contradiction
  | through lookedUp stands itself next ih =>
    exact .through lookedUp (h.node?_eq stands) itself (ih htarget)

/-- A path from the root that leads somewhere led there before, or to the vacant place at which the
new file stands. -/
theorem Filled.leads_before (h : Filled fs fs' location id) {links steps : Nat} {here : Location}
    {segments : List String} {target : Target} (hhere : Reaches fs' here)
    (hslash : ∀ segment ∈ segments, '/' ∉ segment.toList)
    (hleads : Leads fs' purpose links steps here segments target) :
    Leads fs purpose links steps here segments target
      ∨ ∃ slash, target = .found location (.file id) slash
        ∧ Leads fs purpose links steps here segments (.vacant location slash) := by
  -- what is no file stood where it stands
  have hstood {l : Location} {node : Node} (hnode : fs'.node? l = some node)
      (hfile : node ≠ .file id) : fs.node? l = some node := by
    rcases h.node?_before hnode with hsame | ⟨-, heq, -⟩
    · exact hsame
    · exact absurd heq hfile
  induction hleads with
  | arrive stands =>
    -- a directory is reached, so it is not the new file
    obtain ⟨mode, hmode⟩ := hhere.isDirectory
    cases hmode.symm.trans stands
    exact .inl (.arrive (hstood stands nofun))
  | stay neutral next ih =>
    exact (ih hhere fun s hs => hslash s (List.mem_cons_of_mem _ hs)).imp (.stay neutral)
      fun ⟨slash, heq, hvacant⟩ => ⟨slash, heq, .stay neutral hvacant⟩
  | up next ih =>
    exact (ih hhere.dropLast fun s hs => hslash s (List.mem_cons_of_mem _ hs)).imp .up
      fun ⟨slash, heq, hvacant⟩ => ⟨slash, heq, .up hvacant⟩
  | @vacant _ _ here segment rest lookedUp stands final =>
    have hnone : fs.node? (here ++ [segment]) = none := by
      cases hnode : fs.node? (here ++ [segment]) with
      | none => rfl
      | some node =>
        rw [h.node?_eq hnode] at stands
        contradiction
    exact .inl (.vacant lookedUp hnone final)
  | directory lookedUp stands final =>
    exact .inl (.directory lookedUp (hstood stands nofun) final)
  | down lookedUp stands final next ih =>
    have hdown := Reaches.down hhere (lookedUp.isName hslash) stands
    exact (ih hdown fun s hs => hslash s (List.mem_cons_of_mem _ hs)).imp
      (.down lookedUp (hstood stands nofun) final)
      fun ⟨slash, heq, hvacant⟩ => ⟨slash, heq, .down lookedUp (hstood stands nofun) final hvacant⟩
  | @file _ _ here segment rest old lookedUp stands slash =>
    rcases h.node?_before stands with hsame | ⟨rfl, hfile, hnone⟩
    · exact .inl (.file lookedUp hsame slash)
    · cases hfile
      exact .inr ⟨_, rfl, .vacant lookedUp hnone (isFinal_of_slash slash)⟩
  | link lookedUp stands itself => exact .inl (.link lookedUp (hstood stands nofun) itself)
  | @through _ _ here segment rest target goal lookedUp stands itself next ih =>
    have hsegments := Path.forall_segments_append goal (List.forall_mem_cons.1 hslash).2
    exact (ih (hhere.start goal) hsegments).imp (.through lookedUp (hstood stands nofun) itself)
      fun ⟨slash, heq, hvacant⟩ =>
        ⟨slash, heq, .through lookedUp (hstood stands nofun) itself hvacant⟩

/-! ## Paths -/

/-- The path of a file that was created leads to it. -/
theorem Filled.resolve_inspect (h : Filled fs fs' location id) {path : String} {slash : Bool}
    (hcreate : fs.resolve .create path = .ok (.found location (.file id) slash)
      ∨ fs.resolve .create path = .ok (.vacant location slash)) :
    ∃ slash', fs'.resolve .inspect path = .ok (.found location (.file id) slash') := by
  rcases hcreate with hfound | hvacant
  · obtain ⟨hnul, hempty, hshort, hleads⟩ := resolve_eq_ok_iff.1 hfound
    refine ⟨slash, resolve_eq_ok_iff.2 ⟨hnul, hempty, hshort, ?_⟩⟩
    rw [h.current]
    exact h.leads_found hleads.inspect_of_create
  · obtain ⟨hnul, hempty, hshort, hleads⟩ := resolve_eq_ok_iff.1 hvacant
    have hslash := hleads.slash_of_create
    subst hslash
    refine ⟨false, resolve_eq_ok_iff.2 ⟨hnul, hempty, hshort, ?_⟩⟩
    rw [h.current]
    exact h.leads_vacant hleads.inspect_of_create

/-- The path of a file that was created where nothing stood names it, unless it names a link. -/
theorem Filled.resolve_entry (h : Filled fs fs' location id) {path : String} {slash : Bool}
    (hcreate : fs.resolve .create path = .ok (.vacant location slash)) :
    (∃ there goal slash', fs.resolve .entry path = .ok (.found there (.link goal) slash'))
      ∨ fs'.resolve .entry path = .ok (.found location (.file id) false) := by
  obtain ⟨-, -, -, hleads⟩ := resolve_eq_ok_iff.1 hcreate
  have hslash := hleads.slash_of_create
  subst hslash
  refine (resolve_entry_of_create hcreate).imp_right fun hentry => ?_
  obtain ⟨hnul, hempty, hshort, hvacant⟩ := resolve_eq_ok_iff.1 hentry
  refine resolve_eq_ok_iff.2 ⟨hnul, hempty, hshort, ?_⟩
  rw [h.current]
  exact h.leads_vacant hvacant

/-- A path from the root that leads somewhere led there before, or to the vacant place at which the
new file stands. -/
theorem Filled.resolve_before (h : Filled fs fs' location id) {path : String}
    (habsolute : Path.isAbsolute path = true) {target : Target}
    (hpath : fs'.resolve purpose path = .ok target) :
    fs.resolve purpose path = .ok target
      ∨ ∃ slash, target = .found location (.file id) slash
        ∧ fs.resolve purpose path = .ok (.vacant location slash) := by
  obtain ⟨hnul, hempty, hshort, hleads⟩ := resolve_eq_ok_iff.1 hpath
  rw [if_pos habsolute] at hleads
  refine (h.leads_before .root (fun s hs => Path.not_mem_of_mem_segments hs) hleads).imp ?_ ?_
  · intro hbefore
    refine resolve_eq_ok_iff.2 ⟨hnul, hempty, hshort, ?_⟩
    rw [if_pos habsolute]
    exact hbefore
  · rintro ⟨slash, heq, hvacant⟩
    refine ⟨slash, heq, resolve_eq_ok_iff.2 ⟨hnul, hempty, hshort, ?_⟩⟩
    rw [if_pos habsolute]
    exact hvacant

end Reline.FileSystem
