/-
  Reline.Proofs.FileSystem.Reading

  What a reader of a path gets, and when a new file changes it.

  A path shows the data of the file to which it leads. With a new file at a vacant
  place it shows the same as before, unless it leads to just that place: then it
  shows the new file, however much of it has been written.

  Main statements: `shown?_grow`, `shown?_grow_of_vacant`.
-/

import Reline.Proofs.FileSystem.Growth
import Reline.Proofs.FileSystem.Relinking

namespace Reline.FileSystem

variable {fs fs' : FileSystem} {location : Location} {path : String}

/-! ## What is shown -/

/-- The data of the file that a reader of a path gets. -/
def shown? (fs : FileSystem) (path : String) : Option FileData :=
  match fs.openFile path with
  | .ok (some id) => some (fs.data id)
  | .ok none | .error _ => none

theorem shown?_of_openFile {id : FileId} (h : fs.openFile path = .ok (some id)) :
    fs.shown? path = some (fs.data id) := by
  rw [shown?, h]

theorem shown?_eq_some_iff {data : FileData} :
    fs.shown? path = some data
      ↔ ∃ l id slash, fs.resolve .inspect path = .ok (.found l (.file id) slash)
        ∧ fs.data id = data := by
  constructor
  · intro h
    rw [shown?] at h
    split at h
    case h_1 id hopen =>
      cases h
      obtain ⟨l, hinspect⟩ := openFile_eq_ok_some_iff.1 hopen
      obtain ⟨slash, hresolve⟩ := inspect_eq_ok_iff.1 hinspect
      exact ⟨l, id, slash, hresolve, rfl⟩
    case h_2 => contradiction
    case h_3 => contradiction
  · rintro ⟨l, id, slash, hresolve, rfl⟩
    exact shown?_of_openFile (openFile_eq_ok_some_iff.2 ⟨l, inspect_eq_ok_iff.2 ⟨slash, hresolve⟩⟩)

/-- File systems in which a path shows the same things show the same data to its readers. -/
theorem shown?_congr (h : fs'.look .inspect path = fs.look .inspect path) :
    fs'.shown? path = fs.shown? path := by
  have hlook (fs : FileSystem) (data : FileData) : fs.shown? path = some data
      ↔ ∃ l slash, fs.look .inspect path = .ok (.found l (.file data) slash) := by
    rw [shown?_eq_some_iff]
    constructor
    · rintro ⟨l, id, slash, hresolve, rfl⟩
      exact ⟨l, slash, look_eq_found_iff.2 ⟨_, hresolve, rfl⟩⟩
    · rintro ⟨l, slash, hlook⟩
      obtain ⟨node, hresolve, hcontent⟩ := look_eq_found_iff.1 hlook
      cases node <;> cases hcontent
      exact ⟨l, _, slash, hresolve, rfl⟩
  refine Option.ext fun data => ?_
  rw [hlook, hlook, h]

/-- A file system in which everything is as it was in another one. Data that no path leads to may
have been added. -/
structure Restored (fs fs' : FileSystem) : Prop where
  node : ∀ l, fs'.node? l = fs.node? l
  data : ∀ id < fs.files.size, fs'.data id = fs.data id
  current : fs'.current = fs.current

theorem Restored.refl (fs : FileSystem) : Restored fs fs := ⟨fun _ => rfl, fun _ _ => rfl, rfl⟩

/-- Where everything is as it was, each path shows its readers what it showed. -/
theorem Restored.shown?_eq (h : Restored fs fs') (hfiles : WellFormed fs) (path : String) :
    fs'.shown? path = fs.shown? path := by
  refine shown?_congr (look_congr .inspect (fun l _ => ?_) h.current)
  exact SameAt.content?_eq ⟨h.node l, fun id hnode => h.data id (hfiles.data l id hnode)⟩

/-- A new file that was removed again leaves everything as it was. -/
theorem restored_grow (hne : location ≠ []) (hvacant : fs.node? location = none)
    (data : FileData) : Restored fs ((fs.grow location data).dropNode location) where
  node l := by
    rw [node?_dropNode hne, node?_grow hne]
    by_cases hl : l = location
    · rw [if_pos hl, hl, hvacant]
    · rw [if_neg hl, if_neg hl]
  data id hid := (data_grow fs location data id).trans (if_neg (Nat.ne_of_lt hid))
  current := rfl

/-! ## With a new file -/

/-- No slash follows the name of a file that is used. -/
theorem Leads.slash_of_file {links steps : Nat} {here : Location} {segments : List String}
    {id : FileId} {slash : Bool}
    (h : Leads fs .inspect links steps here segments (.found location (.file id) slash)) :
    slash = false := by
  generalize htarget : Target.found location (.file id) slash = target at h
  induction h with
  | arrive =>
    cases htarget
    rfl
  | stay neutral next ih => exact ih htarget
  | up next ih => exact ih htarget
  | vacant => contradiction
  | directory => cases htarget
  | down lookedUp stands final next ih => exact ih htarget
  | file lookedUp stands slash =>
    cases htarget
    rw [decide_eq_false (by decide), Bool.and_false, Bool.not_false, Bool.and_true] at slash
    exact slash
  | link => cases htarget
  | through lookedUp stands itself next ih => exact ih htarget

/-- Readers of a path do not see a new file, unless the path leads to just its place. -/
theorem shown?_grow (hfiles : WellFormed fs) (habsolute : Path.isAbsolute path = true)
    (hne : location ≠ []) (hvacant : fs.node? location = none) (data : FileData)
    (helsewhere : fs.resolve .inspect path ≠ .ok (.vacant location false)) :
    (fs.grow location data).shown? path = fs.shown? path := by
  have hfilled := filled_grow hne hvacant data
  refine Option.ext fun seen => ?_
  rw [shown?_eq_some_iff, shown?_eq_some_iff]
  have hdata {l : Location} {id : FileId} {slash : Bool}
      (hresolve : fs.resolve .inspect path = .ok (.found l (.file id) slash)) :
      (fs.grow location data).data id = fs.data id := by
    have hid := hfiles.data l id (mem_way_of_found hresolve).2
    rw [data_grow, if_neg (Nat.ne_of_lt hid)]
  constructor
  · rintro ⟨l, id, slash, hresolve, rfl⟩
    rcases hfilled.resolve_before habsolute hresolve with hbefore | ⟨slash', heq, hbefore⟩
    · exact ⟨l, id, slash, hbefore, (hdata hbefore).symm⟩
    · -- a file is used by its bare name, so that the place was named without a slash
      obtain ⟨-, -, -, hleads⟩ := resolve_eq_ok_iff.1 hresolve
      obtain rfl := hleads.slash_of_file
      cases heq
      exact absurd hbefore helsewhere
  · rintro ⟨l, id, slash, hresolve, rfl⟩
    obtain ⟨hnul, hempty, hshort, hleads⟩ := resolve_eq_ok_iff.1 hresolve
    exact ⟨l, id, slash,
      resolve_eq_ok_iff.2 ⟨hnul, hempty, hshort, hfilled.leads_found hleads⟩, hdata hresolve⟩

/-- A path that leads to the place of a new file leads to the file. -/
theorem inspect_grow_of_vacant (hne : location ≠ [])
    (hleads : fs.resolve .inspect path = .ok (.vacant location false)) (data : FileData) :
    (fs.grow location data).inspect path = .ok (location, .file fs.files.size) := by
  have hvacant := (mem_way_of_vacant hleads).2
  obtain ⟨hnul, hempty, hshort, hleads⟩ := resolve_eq_ok_iff.1 hleads
  have hfile := (filled_grow hne hvacant data).leads_vacant hleads
  exact inspect_eq_ok_iff.2 ⟨false, resolve_eq_ok_iff.2 ⟨hnul, hempty, hshort, hfile⟩⟩

/-- Readers of a path that leads to the place of a new file see the file. -/
theorem shown?_grow_of_vacant (hne : location ≠ [])
    (hleads : fs.resolve .inspect path = .ok (.vacant location false)) (data : FileData) :
    (fs.grow location data).shown? path = some data := by
  rw [shown?_of_openFile (openFile_eq_ok_some_iff.2 ⟨_, inspect_grow_of_vacant hne hleads data⟩),
    data_grow, if_pos rfl]

/-- Such a path shows the permissions of the new file. -/
theorem mode_grow_of_vacant (hne : location ≠ [])
    (hleads : fs.resolve .inspect path = .ok (.vacant location false)) (data : FileData) :
    (fs.grow location data).mode path = .ok data.mode := by
  rw [mode, inspect_grow_of_vacant hne hleads data]
  dsimp only [bind, Except.bind, pure, Except.pure]
  rw [data_grow, if_pos rfl]

/-! ## Names behind a vacant place -/

/-- A name that is put behind the slash after a vacant place is looked for where nothing stands. -/
theorem Leads.follow_concat_of_vacant {links steps : Nat} {here : Location}
    {segments : List String} {last : String}
    (h : Leads fs .entry links steps here segments (.vacant location true)) (purpose : Purpose)
    (hlast : IsEntry last) :
    fs.follow purpose links steps here (segments.dropLast ++ [last]) = .error .notFound := by
  generalize htarget : Target.vacant location true = target at h
  have hlooked {segment : String} {rest front : List String}
      (lookedUp : IsLookedUp .entry segment rest) :
      IsLookedUp purpose segment (front ++ [last]) :=
    lookedUp.isEntry.lookedUp lookedUp.short (isFinal_concat hlast)
  -- what comes before the slash is followed as before
  have hcons {segment : String} {rest : List String} (hrest : rest ≠ []) :
      (segment :: rest).dropLast ++ [last] = segment :: (rest.dropLast ++ [last]) := by
    rw [List.dropLast_cons_of_ne_nil hrest, List.cons_append]
  have hnil {links steps : Nat} {here : Location} {rest : List String} {target : Target}
      (next : Leads fs .entry links steps here rest target)
      (htarget : Target.vacant location true = target) : rest ≠ [] := by
    rintro rfl
    cases next
    contradiction
  induction h with
  | arrive => contradiction
  | stay neutral next ih =>
    rw [hcons (hnil next htarget), follow_cons_of_neutral neutral]
    exact ih htarget
  | up next ih =>
    rw [hcons (hnil next htarget), follow_cons_above]
    exact ih htarget
  | @vacant links steps here segment rest lookedUp stands final =>
    have hrest : rest ≠ [] := by
      rintro rfl
      cases htarget
    rw [hcons hrest, (hlooked lookedUp).follow_eq, stands]
    exact if_neg (Bool.eq_false_iff.1 (isFinal_concat hlast))
  | directory => contradiction
  | down lookedUp stands final next ih =>
    rw [hcons (hnil next htarget), (hlooked lookedUp).follow_eq, stands]
    exact (if_neg (Bool.eq_false_iff.1 (isFinal_concat hlast))).trans (ih htarget)
  | file => contradiction
  | link => contradiction
  | @through links steps here segment rest target goal lookedUp stands itself next ih =>
    have hrest : rest ≠ [] := by
      rintro rfl
      exact absurd itself (by decide)
    rw [hcons hrest, (hlooked lookedUp).follow_eq, stands, isFinal_concat hlast, ← ih htarget,
      List.dropLast_append_of_ne_nil hrest, List.append_assoc]
    rfl

end Reline.FileSystem
