/-
  Reline.Proofs.Archive.Sharing

  Which calls on a store give one handle.

  Two calls give one handle exactly if both paths lead to one place and the store
  was not closed in between. What happens to the files in between does not
  matter, nor what was asked for under other paths, or under the same path before
  the archive was there. A call that gives no handle leaves nothing behind that
  can be seen, and succeeds later if the archive can be opened then.

  Main statement: `handle_eq_iff_of_runs`.
-/

import Reline.Proofs.Archive.Durability
import Reline.Proofs.Archive.Registry

namespace Reline.Archive

open FileSystem

variable {store store' : Store} {world world' : World} {key key' path path' : String}
  {id id' : HandleId} {events : List Event}

/-! ## Canonical paths -/

/-- Two canonical paths of one place have one text. -/
theorem eq_of_sameKey {fs fs' : FileSystem} (hfiles : WellFormed fs) (hfiles' : WellFormed fs')
    (h : fs.canonical path = .ok key) (h' : fs'.canonical path' = .ok key')
    (hsame : Store.sameKey key key' = true) : key = key' := by
  obtain ⟨location, node, hpath, rfl⟩ := canonical_eq_ok_iff.1 h
  obtain ⟨location', node', hpath', rfl⟩ := canonical_eq_ok_iff.1 h'
  obtain ⟨slash, hresolve⟩ := inspect_eq_ok_iff.1 hpath
  obtain ⟨slash', hresolve'⟩ := inspect_eq_ok_iff.1 hpath'
  have hnamed := (named_of_resolve hfiles.current hresolve).isName.1
  have hnamed' := (named_of_resolve hfiles'.current hresolve').isName.1
  have hroot : Path.names (pathOf []) = [] := by decide
  have hnames {l : Location} (hl : ∀ name ∈ l, IsName name) : Path.names (pathOf l) = l := by
    by_cases hnil : l = []
    · subst hnil
      exact hroot
    · exact names_pathOf hnil hl
  have heq := Store.sameKey_iff.1 hsame
  rw [hnames hnamed, hnames hnamed'] at heq
  rw [heq]

/-! ## Calls that give no handle -/

/-- A call that gives no handle changes nothing in the world, and no place gets or loses its
handle. -/
theorem Store.Asks.of_error {e : Error} (h : store.Asks world path store' world' (.error e)) :
    world' = world ∧ ∀ key, store'.held? key = store.held? key := by
  cases h with
  | invalid keyed => exact ⟨rfl, fun _ => rfl⟩
  | @refused key _ keyed vacant refusal =>
    refine ⟨rfl, fun key' => ?_⟩
    rw [store.held?_register]
    split
    case isTrue hsame => rw [← store.held?_congr hsame, vacant]
    case isFalse => rfl

/-- An empty cell is not counted. -/
theorem Registered.openHandles_register_none (h : Registered store world)
    (hvacant : store.held? key = none) :
    (store.register key none).openHandles = store.openHandles := by
  rw [Store.openHandles, Store.openHandles, Store.register]
  cases hfind : store.find? key with
  | none =>
    dsimp only
    rw [List.countP_append, List.countP_singleton]
    rfl
  | some cell =>
    dsimp only
    rw [List.countP_map]
    refine List.countP_congr fun other hother => ?_
    dsimp only [Function.comp_apply]
    split
    case isFalse => rfl
    case isTrue hsame =>
      -- the cell of the place was empty already
      have hempty : other.handle = none := by
        rw [Store.held?, h.find?_eq hother hsame] at hvacant
        exact hvacant
      rw [hempty]

/-! ## Calls that give a handle -/

/-- The handle that a call gives has a path of the place, the very key if it was just opened. -/
theorem Registered.path_of_asks (h : Registered store world)
    (hasks : store.Asks world path store' world' (.ok id))
    (hkey : Store.key world.files path = .ok key) :
    Store.sameKey (world'.handle id).path key = true
      ∧ (world.handles.size ≤ id → (world'.handle id).path = key) := by
  cases hasks with
  | held keyed held =>
    cases hkey.symm.trans keyed
    obtain ⟨hbound, hpath⟩ := h.of_held held
    exact ⟨hpath, fun hnew => absurd hbound (Nat.not_lt.2 hnew)⟩
  | opened keyed vacant opening =>
    cases hkey.symm.trans keyed
    obtain ⟨file, directory, -, -, -, rfl⟩ := Handle.openAt_eq_ok_iff.1 opening
    rw [World.handle_push, if_pos rfl]
    exact ⟨Store.sameKey_iff.2 rfl, fun _ => rfl⟩

/-- A handle that was forgotten is given by no call. -/
theorem Runs.handle_ne_of_forgets {store₀ : Store} {world₀ : World}
    (h : Runs store₀ world₀ events store world) (hforgets : ∃ event ∈ events, event.forgets = true)
    (hid : id < world₀.handles.size) : (store.handle world path).2.2 ≠ .ok id := by
  intro hresult
  have hasks := store.asks world path
  rw [hresult] at hasks
  generalize (store.handle world path).1 = store' at hasks
  generalize (store.handle world path).2.1 = world' at hasks
  cases hasks with
  | held keyed held =>
    obtain ⟨cell, hcell, hcellId, -⟩ := Store.mem_cells_of_held held
    exact h.not_held hforgets hid cell hcell hcellId
  | opened keyed vacant opening =>
    -- a handle that is opened now has a number that none had
    exact absurd hid (Nat.not_lt.2 h.size_le)

/-- A later call gives the handle of an earlier one exactly if it asks for the same place, and the
store did not forget the handle. -/
theorem Runs.handle_eq_ok_iff {store₀ : Store} {world₀ : World}
    (h : Runs store₀ world₀ events store world) (hregistered : Registered store₀ world₀)
    (hheld : store₀.held? key = some id) (hkey' : Store.key world.files path' = .ok key')
    (heq : Store.sameKey key key' = true → key = key') :
    (store.handle world path').2.2 = .ok id
      ↔ (∀ event ∈ events, event.forgets = false) ∧ key' = key := by
  constructor
  · intro hresult
    have hforgets : ∀ event ∈ events, event.forgets = false := by
      by_contra hforgets
      push Not at hforgets
      obtain ⟨event, hevent, hforget⟩ := hforgets
      exact h.handle_ne_of_forgets ⟨event, hevent, eq_true_of_ne_false hforget⟩
        (hregistered.of_held hheld).1 hresult
    refine ⟨hforgets, ?_⟩
    have hasks := store.asks world path'
    have hstill := hasks.held_of_held (h.held_of_held hforgets hheld)
    rw [hresult] at hasks
    obtain ⟨key'', hkey'', hheld'⟩ := hasks.held_of_ok
    cases hkey'.symm.trans hkey''
    -- one handle is held for one place only
    have hafter := (h.registered hregistered).of_asks hasks
    exact (heq (hafter.sameKey_of_held hstill hheld')).symm
  · rintro ⟨hforgets, rfl⟩
    exact Store.handle_of_held hkey' (h.held_of_held hforgets hheld)

/-- Wherever events have led, an archive that can be opened is given a handle of its place. A later
call gives the same handle exactly if its path leads to the same place and the store was not closed
in between; otherwise what it gives is another handle, of its own place. A call that gives no handle
changes no handle and none of those that are held, and later gives one if the archive can be opened
then. -/
theorem handle_eq_iff_of_runs {files : FileSystem} (hfiles : WellFormed files)
    (hbefore : Runs .empty (.ofFiles files) events store world) (path : String) :
    (∀ key handle, world.files.canonical path = .ok key →
        Handle.openAt world.files key = .ok handle →
          ∃ id, (store.handle world path).2.2 = .ok id)
      ∧ (∀ key id store₁ world₁, world.files.canonical path = .ok key →
        store.handle world path = (store₁, world₁, .ok id) →
          Store.sameKey (world₁.handle id).path key = true
            ∧ (world.handles.size ≤ id → (world₁.handle id).path = key)
            ∧ ∀ between store₂ world₂, Runs store₁ world₁ between store₂ world₂ →
              ∀ path' key', world₂.files.canonical path' = .ok key' →
                ((store₂.handle world₂ path').2.2 = .ok id
                    ↔ (∀ event ∈ between, event.forgets = false) ∧ key' = key)
                  ∧ ∀ store₃ world₃ id', store₂.handle world₂ path' = (store₃, world₃, .ok id') →
                    Store.sameKey (world₃.handle id').path key' = true
                      ∧ (world₂.handles.size ≤ id' → (world₃.handle id').path = key'))
      ∧ ∀ e store₁ world₁, store.handle world path = (store₁, world₁, .error e) →
        world₁ = world ∧ store₁.openHandles = store.openHandles
          ∧ (∀ key, store₁.held? key = store.held? key)
          ∧ ∀ between store₂ world₂, Runs store₁ world₁ between store₂ world₂ →
            ∀ key handle, Store.key world₂.files path = .ok key →
              Handle.openAt world₂.files key = .ok handle →
                ∃ id, (store₂.handle world₂ path).2.2 = .ok id := by
  have hsound := hbefore.sound (sound_ofFiles hfiles)
  have hregistered := hbefore.registered (registered_ofFiles files)
  refine ⟨fun key handle hcanonical hopen => ?_,
    fun key id store₁ world₁ hcanonical hhandle => ?_, fun e store₁ world₁ hhandle => ?_⟩
  · exact store.exists_handle_eq_ok (key_of_canonical hcanonical) hopen
  · -- the handle that was given is registered under the key, and held until it is forgotten
    have hasks := Store.asks_of_handle hhandle
    have hkey := key_of_canonical hcanonical
    obtain ⟨hsame, hexact⟩ := hregistered.path_of_asks hasks hkey
    have hregistered₁ := hregistered.of_asks hasks
    have hsound₁ : Sound world₁ := by
      have hasked := (hsound.handle store path).1
      rw [hhandle] at hasked
      exact hasked
    have hheld : store₁.held? key = some id := by
      obtain ⟨key₁, hkey₁, hheld⟩ := hasks.held_of_ok
      cases hkey.symm.trans hkey₁
      exact hheld
    refine ⟨hsame, hexact, fun between store₂ world₂ hbetween path' key' hcanonical' => ?_⟩
    have hkey' := key_of_canonical hcanonical'
    constructor
    · refine hbetween.handle_eq_ok_iff hregistered₁ hheld hkey' fun hsame => ?_
      -- keys of one place are spelled alike, for both are canonical
      exact eq_of_sameKey hsound.files (hbetween.sound hsound₁).files hcanonical hcanonical' hsame
    · intro store₃ world₃ id' hhandle'
      exact (hbetween.registered hregistered₁).path_of_asks (Store.asks_of_handle hhandle') hkey'
  · have hasks := Store.asks_of_handle hhandle
    obtain ⟨hworld, hheld⟩ := hasks.of_error
    refine ⟨hworld, ?_, hheld, fun between store₂ world₂ _ key handle hkey hopen => ?_⟩
    · -- only a cell without a handle may have been added
      cases hasks with
      | invalid keyed => rfl
      | refused keyed vacant refusal =>
        exact hregistered.openHandles_register_none vacant
    · exact store₂.exists_handle_eq_ok hkey hopen

/-- A store that was first asked for an archive that is missing. -/
def missedState : Store × World := run .empty twiceWorld [.handle "none.jar"]

/-- The store and the world after it was then asked for one that is there. -/
def sharedState : Store × World := run missedState.1 missedState.2 [.handle "lib.jar"]

theorem handle_missedState : (missedState.1.handle missedState.2 "lib.jar").2.2 = .ok 0
    ∧ (∀ cell ∈ sharedState.1.cells, cell.handle ∈ [none, some 0])
    ∧ (sharedState.2.handle 0).staged.isEmpty = true := by
  decide +kernel

/-- Uses that close nothing change no file. -/
theorem files_run (h : Sound world) (store : Store) (uses : List Use)
    (hcloses : ∀ use ∈ uses, use.closes = false) :
    Sound (run store world uses).2 ∧ (run store world uses).2.files = world.files := by
  induction uses generalizing store world with
  | nil => exact ⟨h, rfl⟩
  | cons use uses ih =>
    obtain ⟨hnone, hrest⟩ := List.forall_mem_cons.1 hcloses
    obtain ⟨hsound, hfiles⟩ : Sound (use.apply store world).2 ∧ _ := h.apply hnone
    obtain ⟨hsound', hfiles'⟩ := ih hsound (use.apply store world).1 hrest
    exact ⟨hsound', hfiles'.trans hfiles⟩

/-- Another path to the archive gives its handle, also after a write and a call that fails. Once the
store was closed it does not. -/
theorem handle_eq_iff_sharedState :
    ((run sharedState.1 sharedState.2 [.write "lib.jar" "a" [7], .handle "none.jar"]).1.handle
        (run sharedState.1 sharedState.2 [.write "lib.jar" "a" [7], .handle "none.jar"]).2
        "./lib.jar").2.2 = .ok 0
      ∧ ((run sharedState.1 sharedState.2 [.closeAll]).1.handle
        (run sharedState.1 sharedState.2 [.closeAll]).2 "./lib.jar").2.2 ≠ .ok 0 := by
  obtain ⟨hresult, hcells, hopened⟩ := handle_missedState
  have hbefore : Runs .empty (.ofFiles twiceWorld.files) [.use (.handle "none.jar")] missedState.1
      missedState.2 := Runs.start.append_uses [.handle "none.jar"] (by simp [Use.handle?])
  obtain ⟨-, hgiven, -⟩ :=
    handle_eq_iff_of_runs archived_twiceWorld.wellFormed hbefore "lib.jar"
  have hhandle : missedState.1.handle missedState.2 "lib.jar"
      = (sharedState.1, sharedState.2, .ok 0) := by
    rw [← hresult, sharedState, run, run, Use.apply]
  -- until the store is closed, the files are those at the beginning
  obtain ⟨hsound, hmissed⟩ : Sound missedState.2 ∧ missedState.2.files = twiceWorld.files :=
    files_run (sound_ofFiles archived_twiceWorld.wellFormed) _ _ (by simp [Use.closes])
  obtain ⟨hsound', hshared⟩ : Sound sharedState.2 ∧ sharedState.2.files = missedState.2.files :=
    files_run hsound _ _ (by simp [Use.closes])
  have hcanonical : twiceWorld.files.canonical "./lib.jar" = .ok "/lib.jar" := by decide +kernel
  obtain ⟨-, -, hlater⟩ := hgiven "/lib.jar" 0 _ _ (by rw [hmissed]; decide +kernel) hhandle
  have hstart : Runs sharedState.1 sharedState.2 [] sharedState.1 sharedState.2 := .start
  constructor
  · have huses := hstart.append_uses [.write "lib.jar" "a" [7], .handle "none.jar"]
      (by simp [Use.handle?])
    obtain ⟨-, hwritten⟩ := files_run hsound' sharedState.1
      [.write "lib.jar" "a" [7], .handle "none.jar"] (by simp [Use.closes])
    rw [← hmissed, ← hshared, ← hwritten] at hcanonical
    refine (hlater _ _ _ huses "./lib.jar" "/lib.jar" hcanonical).1.2 ⟨?_, rfl⟩
    simp [Event.forgets, Use.forgets]
  · have huses := hstart.append_uses [.closeAll] (by simp [Use.handle?])
    have hclean : ∀ cell ∈ sharedState.1.cells, ∀ id, cell.handle = some id →
        (sharedState.2.handle id).staged.isEmpty := by
      intro cell hcell id hid
      have hzero := hcells cell hcell
      simp only [hid, List.mem_cons, reduceCtorEq, Option.some.injEq, List.not_mem_nil, or_false,
        false_or] at hzero
      rw [hzero]
      exact hopened
    -- nothing was written, so closing leaves the files as they are
    have hclosed : (run sharedState.1 sharedState.2 [.closeAll]).2.files = sharedState.2.files :=
      Store.closeCells_of_clean fun cell hcell => hclean cell (List.mem_mergeSort.1 hcell)
    rw [← hmissed, ← hshared, ← hclosed] at hcanonical
    intro hsame
    have hforgets := ((hlater _ _ _ huses "./lib.jar" "/lib.jar" hcanonical).1.1 hsame).1
    simp [Event.forgets, Use.forgets] at hforgets

end Reline.Archive
