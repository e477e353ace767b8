/-
  Reline.Proofs.FileSystem.Sight

  What a path shows, and the places that decide it.

  A file's number cannot be seen, only its data. What a path shows depends on what
  can be seen at the places on its way and on nothing else: two file systems that
  look alike there give the same answer, whatever stands elsewhere and however
  their files are numbered. A way ends at a file, so that putting a file somewhere
  or taking it away again leads no path to places where it was not led before.

  Main statements: `look_congr`, `way_subset`.
-/

import Reline.Proofs.FileSystem.Frame

namespace Reline.FileSystem

variable {fs fs' : FileSystem} {purpose : Purpose} {location : Location}

/-! ## What can be seen -/

/-- What can be seen at a place. -/
inductive Content where
  /-- A directory with its permissions. -/
  | directory (mode : Nat)
  /-- A file with its data. -/
  | file (data : FileData)
  /-- A link to a path. -/
  | link (target : String)
deriving DecidableEq, Repr

/-- What can be seen of something that stands at a place. -/
def content (fs : FileSystem) : Node → Content
  | .directory mode => .directory mode
  | .file id => .file (fs.data id)
  | .link target => .link target

/-- What can be seen at a place, if something is there. -/
def content? (fs : FileSystem) (location : Location) : Option Content :=
  (fs.node? location).map fs.content

/-- What a path shows. `slash` says whether a slash follows the last name. -/
inductive Sight where
  /-- Something that is there. -/
  | found (location : Location) (content : Content) (slash : Bool)
  /-- A place in a directory that is there. -/
  | vacant (location : Location) (slash : Bool)
deriving DecidableEq, Repr

/-- What can be seen of a target. -/
def sight (fs : FileSystem) : Target → Sight
  | .found location node slash => .found location (fs.content node) slash
  | .vacant location slash => .vacant location slash

/-- What a path shows when it is followed for a purpose. -/
def look (fs : FileSystem) (purpose : Purpose) (path : String) : Except IoError Sight :=
  (fs.resolve purpose path).map fs.sight

theorem content?_of_node? {node : Node} (h : fs.node? location = some node) :
    fs.content? location = some (fs.content node) := by
  rw [content?, h, Option.map_some]

theorem node?_eq_none_iff : fs.node? location = none ↔ fs.content? location = none :=
  Option.map_eq_none_iff.symm

theorem node?_eq_directory_iff {mode : Nat} :
    fs.node? location = some (.directory mode) ↔ fs.content? location = some (.directory mode) := by
  rw [content?]
  cases fs.node? location with
  | none => simp
  | some node => cases node <;> simp [content]

theorem node?_eq_link_iff {goal : String} :
    fs.node? location = some (.link goal) ↔ fs.content? location = some (.link goal) := by
  rw [content?]
  cases fs.node? location with
  | none => simp
  | some node => cases node <;> simp [content]

theorem exists_node?_eq_file_iff {data : FileData} :
    (∃ id, fs.node? location = some (.file id) ∧ fs.data id = data)
      ↔ fs.content? location = some (.file data) := by
  rw [content?]
  cases fs.node? location with
  | none => simp
  | some node => cases node <;> simp [content]

theorem SameAt.content?_eq (h : SameAt fs fs' location) :
    fs'.content? location = fs.content? location := by
  rw [content?, content?, h.node]
  cases hnode : fs.node? location with
  | none => rfl
  | some node =>
    cases node with
    | directory mode => rfl
    | link goal => rfl
    | file id =>
      rw [Option.map_some, Option.map_some, content, content, h.data id hnode]

theorem look_eq_ok_iff {path : String} {shown : Sight} :
    fs.look purpose path = .ok shown
      ↔ ∃ target, fs.resolve purpose path = .ok target ∧ fs.sight target = shown := by
  rw [look]
  cases fs.resolve purpose path with
  | error e => simp [Except.map]
  | ok target => simp [Except.map]

theorem look_eq_vacant_iff {path : String} {slash : Bool} :
    fs.look purpose path = .ok (.vacant location slash)
      ↔ fs.resolve purpose path = .ok (.vacant location slash) := by
  rw [look_eq_ok_iff]
  constructor
  · rintro ⟨target, hresolve, hsight⟩
    cases target with
    | found l node s => cases hsight
    | vacant l s =>
      cases hsight
      exact hresolve
  · exact fun h => ⟨_, h, rfl⟩

theorem look_eq_found_iff {path : String} {shown : Content} {slash : Bool} :
    fs.look purpose path = .ok (.found location shown slash)
      ↔ ∃ node, fs.resolve purpose path = .ok (.found location node slash)
        ∧ fs.content node = shown := by
  rw [look_eq_ok_iff]
  constructor
  · rintro ⟨target, hresolve, hsight⟩
    cases target with
    | vacant l s => cases hsight
    | found l node s =>
      cases hsight
      exact ⟨node, hresolve, rfl⟩
  · rintro ⟨node, hresolve, rfl⟩
    exact ⟨_, hresolve, rfl⟩

theorem look_eq_error_iff {path : String} {e : IoError} :
    fs.look purpose path = .error e ↔ fs.resolve purpose path = .error e := by
  rw [look]
  cases fs.resolve purpose path <;> simp [Except.map]

/-! ## Ways -/

/-- The places that are looked at when segments are followed from a directory, links included. -/
def wayFrom (fs : FileSystem) :
    (links steps : Nat) → (here : Location) → List String → List Location
  | _, _, here, [] => [here]
  | _, 0, _, _ :: _ => []
  | links, steps + 1, here, segment :: rest =>
    if Path.isNeutral segment then fs.wayFrom links steps here rest
    else if segment = ".." then fs.wayFrom links steps here.dropLast rest
    else
      (here ++ [segment]) ::
        match fs.node? (here ++ [segment]) with
        | some (.directory _) => fs.wayFrom links steps (here ++ [segment]) rest
        | some (.link target) =>
          match links with
          | 0 => []
          | links + 1 =>
            let start := if Path.isAbsolute target then [] else here
            fs.wayFrom links steps start (Path.segments target ++ rest)
        | _ => []

/-- The places that are looked at when a path is followed to its end. -/
def way (fs : FileSystem) (path : String) : List Location :=
  let start := if Path.isAbsolute path then [] else fs.current
  fs.wayFrom linkLimit stepLimit start (Path.segments path)

theorem wayFrom_cons_of_neutral {segment : String} (neutral : Path.isNeutral segment = true)
    (links steps : Nat) (here : Location) (rest : List String) :
    fs.wayFrom links (steps + 1) here (segment :: rest) = fs.wayFrom links steps here rest := by
  rw [wayFrom, if_pos neutral]

theorem wayFrom_cons_above (links steps : Nat) (here : Location) (rest : List String) :
    fs.wayFrom links (steps + 1) here (".." :: rest)
      = fs.wayFrom links steps here.dropLast rest := by
  rw [wayFrom, if_neg (by decide), if_pos rfl]

theorem wayFrom_nil (links steps : Nat) (here : Location) :
    fs.wayFrom links steps here [] = [here] := by
  cases steps <;> rfl

theorem wayFrom_cons_of_name {segment : String} (hneutral : Path.isNeutral segment = false)
    (habove : segment ≠ "..") (links steps : Nat) (here : Location) (rest : List String) :
    fs.wayFrom links (steps + 1) here (segment :: rest)
      = (here ++ [segment]) ::
        match fs.node? (here ++ [segment]) with
        | some (.directory _) => fs.wayFrom links steps (here ++ [segment]) rest
        | some (.link target) =>
          match links with
          | 0 => []
          | links + 1 =>
            fs.wayFrom links steps (if Path.isAbsolute target then [] else here)
              (Path.segments target ++ rest)
        | _ => [] := by
  rw [wayFrom, if_neg (Bool.eq_false_iff.1 hneutral), if_neg habove]

theorem IsLookedUp.mem_wayFrom {segment : String} {rest : List String}
    (h : IsLookedUp purpose segment rest) {links steps : Nat} {here : Location} :
    here ++ [segment] ∈ fs.wayFrom links (steps + 1) here (segment :: rest) := by
  rw [wayFrom_cons_of_name h.notNeutral h.notAbove]
  exact List.mem_cons_self ..

/-- What segments lead to lies on their way. -/
theorem Leads.mem_wayFrom {links steps : Nat} {here : Location} {segments : List String}
    {target : Target} (h : Leads fs purpose links steps here segments target) :
    (∀ l node slash, target = .found l node slash →
        l ∈ fs.wayFrom links steps here segments ∧ fs.node? l = some node)
      ∧ ∀ l slash, target = .vacant l slash →
        l ∈ fs.wayFrom links steps here segments ∧ fs.node? l = none := by
  induction h with
  | arrive stands =>
    rw [wayFrom_nil]
    refine ⟨fun l node slash heq => ?_, nofun⟩
    cases heq
    exact ⟨List.mem_singleton_self _, stands⟩
  | stay neutral next ih =>
    rw [wayFrom_cons_of_neutral neutral]
    exact ih
  | up next ih =>
    rw [wayFrom_cons_above]
    exact ih
  | vacant lookedUp stands final =>
    refine ⟨nofun, fun l slash heq => ?_⟩
    cases heq
    exact ⟨lookedUp.mem_wayFrom, stands⟩
  | directory lookedUp stands final =>
    refine ⟨fun l node slash heq => ?_, nofun⟩
    cases heq
    exact ⟨lookedUp.mem_wayFrom, stands⟩
  | file lookedUp stands slash =>
    refine ⟨fun l node slash heq => ?_, nofun⟩
    cases heq
    exact ⟨lookedUp.mem_wayFrom, stands⟩
  | link lookedUp stands itself =>
    refine ⟨fun l node slash heq => ?_, nofun⟩
    cases heq
    exact ⟨lookedUp.mem_wayFrom, stands⟩
  | down lookedUp stands final next ih =>
    rw [wayFrom_cons_of_name lookedUp.notNeutral lookedUp.notAbove, stands]
    exact ⟨fun l node slash heq => (ih.1 l node slash heq).imp_left (List.mem_cons_of_mem _),
      fun l slash heq => (ih.2 l slash heq).imp_left (List.mem_cons_of_mem _)⟩
  | through lookedUp stands itself next ih =>
    rw [wayFrom_cons_of_name lookedUp.notNeutral lookedUp.notAbove, stands]
    exact ⟨fun l node slash heq => (ih.1 l node slash heq).imp_left (List.mem_cons_of_mem _),
      fun l slash heq => (ih.2 l slash heq).imp_left (List.mem_cons_of_mem _)⟩

/-- What a path finds lies on its way. -/
theorem mem_way_of_found {path : String} {node : Node} {slash : Bool}
    (h : fs.resolve purpose path = .ok (.found location node slash)) :
    location ∈ fs.way path ∧ fs.node? location = some node := by
  obtain ⟨-, -, -, hleads⟩ := resolve_eq_ok_iff.1 h
  exact hleads.mem_wayFrom.1 _ _ _ rfl

theorem mem_way_of_vacant {path : String} {slash : Bool}
    (h : fs.resolve purpose path = .ok (.vacant location slash)) :
    location ∈ fs.way path ∧ fs.node? location = none := by
  obtain ⟨-, -, -, hleads⟩ := resolve_eq_ok_iff.1 h
  exact hleads.mem_wayFrom.2 _ _ rfl

/-! ## File systems that look alike on a way -/

/-- The same can be seen of what stands in two file systems, or nothing stands in either. -/
inductive LooksAlike (fs fs' : FileSystem) : Option Node → Option Node → Prop where
  | none : LooksAlike fs fs' none none
  | directory (mode : Nat) :
    LooksAlike fs fs' (some (.directory mode)) (some (.directory mode))
  | file {id id' : FileId} (data : fs'.data id' = fs.data id) :
    LooksAlike fs fs' (some (.file id)) (some (.file id'))
  | link (goal : String) : LooksAlike fs fs' (some (.link goal)) (some (.link goal))

theorem looksAlike_of_content?_eq (h : fs'.content? location = fs.content? location) :
    LooksAlike fs fs' (fs.node? location) (fs'.node? location) := by
  cases hstands : fs.node? location with
  | none =>
    rw [node?_eq_none_iff.2 (h.trans (node?_eq_none_iff.1 hstands))]
    exact .none
  | some node =>
    cases node with
    | directory mode =>
      rw [node?_eq_directory_iff.2 (h.trans (node?_eq_directory_iff.1 hstands))]
      exact .directory mode
    | file id =>
      obtain ⟨id', hstands', hdata⟩ := exists_node?_eq_file_iff.2
        (h.trans (exists_node?_eq_file_iff.1 ⟨id, hstands, rfl⟩))
      rw [hstands']
      exact .file hdata
    | link goal =>
      rw [node?_eq_link_iff.2 (h.trans (node?_eq_link_iff.1 hstands))]
      exact .link goal

/-- No segments show the same at places with the same content. -/
theorem follow_nil_congr (purpose : Purpose) {links steps : Nat} {here : Location}
    (h : fs'.content? here = fs.content? here) :
    (fs'.follow purpose links steps here []).map fs'.sight
      = (fs.follow purpose links steps here []).map fs.sight := by
  rw [follow_nil, follow_nil]
  have halike := looksAlike_of_content?_eq h
  generalize fs.node? here = node at halike ⊢
  generalize fs'.node? here = node' at halike ⊢
  cases halike with
  | none => rfl
  | directory mode => rfl
  | file data => simp only [Except.map, sight, content, data]
  | link goal => rfl

/-- What segments show is the same in file systems that look alike on their way. -/
theorem follow_congr (purpose : Purpose) {links steps : Nat} {here : Location}
    {segments : List String}
    (h : ∀ l ∈ fs.wayFrom links steps here segments, fs'.content? l = fs.content? l) :
    (fs'.follow purpose links steps here segments).map fs'.sight
      = (fs.follow purpose links steps here segments).map fs.sight := by
  induction links, steps, here, segments using segments_induction with
  | nil =>
    rw [wayFrom_nil] at h
    exact follow_nil_congr purpose (h _ (List.mem_singleton_self _))
  | exhausted => rfl
  | stay _ _ _ _ _ neutral ih =>
    rw [wayFrom_cons_of_neutral neutral] at h
    rw [follow_cons_of_neutral neutral, follow_cons_of_neutral neutral, ih h]
  | up _ _ _ _ ih =>
    rw [wayFrom_cons_above] at h
    rw [follow_cons_above, follow_cons_above, ih h]
  | name links _ here segment rest neutral above ih =>
    by_cases lookedUp : IsLookedUp purpose segment rest
    · -- what stands there decides where the next segment is looked for
      rw [wayFrom_cons_of_name neutral above, List.forall_mem_cons] at h
      obtain ⟨hthere, hnext⟩ := h
      rw [lookedUp.follow_eq, lookedUp.follow_eq]
      have halike := looksAlike_of_content?_eq hthere
      generalize fs.node? (here ++ [segment]) = node at halike hnext ⊢
      generalize fs'.node? (here ++ [segment]) = node' at halike ⊢
      cases halike with
      | none => dsimp only; split <;> rfl
      | directory mode =>
        dsimp only
        split
        · rfl
        · exact ih _ _ _ hnext
      | file data =>
        dsimp only
        split
        · rfl
        · simp only [Except.map, sight, content, data]
      | link goal =>
        dsimp only
        split
        · rfl
        · cases links with
          | zero => rfl
          | succ links => exact ih _ _ _ hnext
    · -- the checks in front of the look-up do not ask the file system
      obtain ⟨e, he⟩ := exists_follow_eq_error neutral above lookedUp
      rw [he, he]
      rfl

/-- What a path shows is the same in file systems that look alike on its way. -/
theorem look_congr {path : String} (purpose : Purpose)
    (h : ∀ l ∈ fs.way path, fs'.content? l = fs.content? l) (hcurrent : fs'.current = fs.current) :
    fs'.look purpose path = fs.look purpose path := by
  have hfollow := follow_congr purpose h
  rw [look, look, resolve, resolve]
  split
  · rfl
  · split
    · rfl
    · split
      · rfl
      · have hswap (fs : FileSystem) (result : Except OsError Target) :
            (result.mapError IoError.os).map fs.sight = (result.map fs.sight).mapError .os := by
          cases result <;> rfl
        rw [hcurrent, hswap, hswap, hfollow]

/-- File systems that look alike on the way of segments have the same way. -/
theorem wayFrom_congr {links steps : Nat} {here : Location} {segments : List String}
    (h : ∀ l ∈ fs.wayFrom links steps here segments, fs'.content? l = fs.content? l) :
    fs'.wayFrom links steps here segments = fs.wayFrom links steps here segments := by
  induction links, steps, here, segments using segments_induction with
  | nil => rw [wayFrom_nil, wayFrom_nil]
  | exhausted => rfl
  | stay _ _ _ _ _ neutral ih =>
    rw [wayFrom_cons_of_neutral neutral] at h ⊢
    rw [wayFrom_cons_of_neutral neutral, ih h]
  | up _ _ _ _ ih =>
    rw [wayFrom_cons_above] at h ⊢
    rw [wayFrom_cons_above, ih h]
  | name links _ here segment rest neutral above ih =>
    rw [wayFrom_cons_of_name neutral above, List.forall_mem_cons] at h
    obtain ⟨hthere, hnext⟩ := h
    rw [wayFrom_cons_of_name neutral above, wayFrom_cons_of_name neutral above]
    refine congrArg _ ?_
    have halike := looksAlike_of_content?_eq hthere
    generalize fs.node? (here ++ [segment]) = node at halike hnext ⊢
    generalize fs'.node? (here ++ [segment]) = node' at halike ⊢
    cases halike with
    | none => rfl
    | directory mode => exact ih _ _ _ hnext
    | file data => rfl
    | link goal =>
      cases links with
      | zero => rfl
      | succ links => exact ih _ _ _ hnext

/-- File systems that look alike on the way of a path have the same way. -/
theorem way_congr {path : String} (h : ∀ l ∈ fs.way path, fs'.content? l = fs.content? l)
    (hcurrent : fs'.current = fs.current) : fs'.way path = fs.way path := by
  rw [way, hcurrent]
  exact wayFrom_congr h

/-! ## Ways that end earlier -/

/-- A file system in which what leads on stood in another one, too: a directory, perhaps with other
permissions, or the same link. -/
structure Ended (fs fs' : FileSystem) : Prop where
  directory : ∀ l mode, fs'.node? l = some (.directory mode) →
    ∃ mode', fs.node? l = some (.directory mode')
  link : ∀ l goal, fs'.node? l = some (.link goal) → fs.node? l = some (.link goal)

/-- Where at most files came, went, or got other data, nothing new leads on. -/
theorem ended_of_nodes (h : ∀ l, fs'.node? l = fs.node? l ∨ fs'.node? l = none
    ∨ ∃ id, fs'.node? l = some (.file id)) : Ended fs fs' where
  directory l mode hnode := by
    rcases h l with hsame | hnone | ⟨id, hfile⟩
    · exact ⟨mode, hsame.symm.trans hnode⟩
    · cases hnone.symm.trans hnode
    · cases hfile.symm.trans hnode
  link l goal hnode := by
    rcases h l with hsame | hnone | ⟨id, hfile⟩
    · exact hsame.symm.trans hnode
    · cases hnone.symm.trans hnode
    · cases hfile.symm.trans hnode

theorem Ended.refl (fs : FileSystem) : Ended fs fs := ⟨fun _ mode h => ⟨mode, h⟩, fun _ _ h => h⟩

theorem Ended.trans {fs'' : FileSystem} (h : Ended fs fs') (h' : Ended fs' fs'') :
    Ended fs fs'' where
  directory l mode hnode := by
    obtain ⟨mode', hnode'⟩ := h'.directory l mode hnode
    exact h.directory l mode' hnode'
  link l goal hnode := h.link l goal (h'.link l goal hnode)

theorem Ended.wayFrom_subset (h : Ended fs fs') {links steps : Nat} {here : Location}
    {segments : List String} {l : Location}
    (hl : l ∈ fs'.wayFrom links steps here segments) :
    l ∈ fs.wayFrom links steps here segments := by
  induction links, steps, here, segments using segments_induction with
  | nil => rwa [wayFrom_nil] at hl ⊢
  | exhausted => exact hl
  | stay _ _ _ _ _ neutral ih =>
    rw [wayFrom_cons_of_neutral neutral] at hl ⊢
    exact ih hl
  | up _ _ _ _ ih =>
    rw [wayFrom_cons_above] at hl ⊢
    exact ih hl
  | name links _ here segment rest neutral above ih =>
    rw [wayFrom_cons_of_name neutral above] at hl ⊢
    rcases List.mem_cons.1 hl with rfl | hl
    · exact List.mem_cons_self ..
    · refine List.mem_cons_of_mem _ ?_
      cases hstands : fs'.node? (here ++ [segment]) with
      | none =>
        rw [hstands] at hl
        contradiction
      | some node =>
        rw [hstands] at hl
        cases node with
        | file id => contradiction
        | directory mode =>
          obtain ⟨mode', hstood⟩ := h.directory _ mode hstands
          rw [hstood]
          exact ih _ _ _ hl
        | link goal =>
          rw [h.link _ goal hstands]
          cases links with
          | zero => exact hl
          | succ links => exact ih _ _ _ hl

/-- A path goes over no place that it did not go over before files came or went. -/
theorem Ended.way_subset (h : Ended fs fs') (hcurrent : fs'.current = fs.current) {path : String}
    {l : Location} (hl : l ∈ fs'.way path) : l ∈ fs.way path := by
  rw [way, hcurrent] at hl
  exact h.wayFrom_subset hl

end Reline.FileSystem
