/-
  Reline.Proofs.Archive.Independence

  Closing a store is closing each of its handles on its own.

  Handles are closed in the order of their paths, each in the file system that
  those before it left behind. That makes no difference to it if none of the
  archives that are rewritten lies on the way of its path or of the path beside
  it, and nothing stands beside those that are rewritten: each close comes to what
  it would have come to alone, whatever became of the others. A way that leads over
  another archive's place does make a difference, for what stood there, a link
  perhaps, gives way to a file.

  Main statement: `closeAll_independent`.
-/

import Reline.Proofs.Archive.Backing
import Reline.Proofs.Archive.Durability
import Reline.Proofs.Archive.Outcome

namespace Reline.Archive

open FileSystem

variable {store closed : Store} {base world after : World} {id : HandleId} {events : List Event}

/-! ## The order of paths -/

namespace Store

theorem namesLe_cons_iff {a b : String} (hne : a ≠ b) (as bs : List String) :
    namesLe (a :: as) (b :: bs) = true ↔ b ≠ ".." ∧ (a = ".." ∨ a < b) := by
  rw [namesLe, if_neg hne]
  by_cases ha : a = ".."
  · rw [if_pos ha]
    exact ⟨fun _ => ⟨fun hb => hne (ha.trans hb.symm), .inl ha⟩, fun _ => rfl⟩
  · rw [if_neg ha]
    by_cases hb : b = ".."
    · simp [hb]
    · simp [ha, hb]

theorem namesLe_total (as bs : List String) : (namesLe as bs || namesLe bs as) = true := by
  rw [Bool.or_eq_true]
  induction as generalizing bs with
  | nil => exact .inl rfl
  | cons a as ih =>
    cases bs with
    | nil => exact .inr rfl
    | cons b bs =>
      by_cases hab : a = b
      · rw [namesLe, namesLe, if_pos hab, if_pos hab.symm]
        exact ih bs
      · rw [namesLe_cons_iff hab, namesLe_cons_iff (Ne.symm hab)]
        by_cases ha : a = ".."
        · exact .inl ⟨fun hb => hab (ha.trans hb.symm), .inl ha⟩
        · by_cases hb : b = ".."
          · exact .inr ⟨ha, .inl hb⟩
          · -- two names that are not of two dots are compared as texts
            by_cases hlt : a < b
            · exact .inl ⟨hb, .inr hlt⟩
            · have hle := String.not_lt.1 hlt
              have hgt : b < a := by
                by_contra hge
                exact hab (String.le_antisymm (String.not_lt.1 hge) hle)
              exact .inr ⟨ha, .inr hgt⟩

theorem namesLe_trans (as bs cs : List String) (hab : namesLe as bs = true)
    (hbc : namesLe bs cs = true) : namesLe as cs = true := by
  induction as generalizing bs cs with
  | nil => rfl
  | cons a as ih =>
    cases bs with
    | nil => contradiction
    | cons b bs =>
      cases cs with
      | nil => contradiction
      | cons c cs =>
        by_cases heq : a = b
        · subst heq
          by_cases heq' : a = c
          · rw [namesLe, if_pos rfl] at hab
            rw [namesLe, if_pos heq'] at hbc ⊢
            exact ih bs cs hab hbc
          · rw [namesLe_cons_iff heq'] at hbc ⊢
            exact hbc
        · rw [namesLe_cons_iff heq] at hab
          by_cases heq' : b = c
          · subst heq'
            exact (namesLe_cons_iff heq ..).2 hab
          · rw [namesLe_cons_iff heq'] at hbc
            -- `..` comes before all other names, so that only the first of the three can be it
            have hlt : b < c := hbc.2.resolve_left hab.1
            have hac : a = ".." ∨ a < c := hab.2.imp_right fun hlt' => String.lt_trans hlt' hlt
            have hne : a ≠ c := by
              rintro rfl
              rcases hac with hdots | hself
              · exact hbc.1 hdots
              · exact String.lt_irrefl a hself
            exact (namesLe_cons_iff hne ..).2 ⟨hbc.1, hac⟩

/-- Cells are closed in the order of their keys. -/
theorem pairwise_ordered (store : Store) :
    store.ordered.Pairwise fun a b => namesLe (Path.names a.key) (Path.names b.key) = true := by
  rw [ordered]
  apply List.pairwise_mergeSort
  · exact fun a b c => namesLe_trans (Path.names a.key) (Path.names b.key) (Path.names c.key)
  · exact fun a b => namesLe_total (Path.names a.key) (Path.names b.key)

end Store

/-! ## One handle -/

/-- What closing a handle comes to: nothing, or a file at the place of its archive. -/
def closing (world : World) (id : HandleId) : Except Error (Option Placed) :=
  match (world.handle id).source with
  | none => .ok none
  | some source =>
    if (world.handle id).staged.isEmpty then .ok none
    else (Handle.outcome world.files source (world.handle id).staged (world.handle id).path).map some

/-- Whether nothing stands beside the archive of a handle. -/
def FreeBeside (world : World) (id : HandleId) : Prop :=
  ∀ l node slash, world.files.resolve .entry (Handle.temporaryPath (world.handle id).path)
    ≠ .ok (.found l node slash)

/-- Closing a handle comes to what it should, and that is all that can be seen of it. -/
theorem becomes_closeHandle (hsound : Sound world) (hbacked : Backed world)
    (hfree : (world.handle id).staged.isEmpty = false → FreeBeside world id) :
    (world.closeHandle id).2 = (closing world id).map (fun _ => ())
      ∧ Becomes world.files (world.closeHandle id).1.files (closing world id).toOption.join := by
  rw [World.closeHandle, Handle.close, closing]
  cases hsource : (world.handle id).source with
  | none => exact ⟨rfl, .refl hsound.files⟩
  | some source =>
    dsimp only
    cases hstaged : (world.handle id).staged.isEmpty with
    | true => exact ⟨rfl, .refl hsound.files⟩
    | false =>
      have habsolute := hsound.isAbsolute id (hsource ▸ Option.some_ne_none _)
      obtain ⟨hresult, hbecomes⟩ : (Handle.flush world.files source (world.handle id).staged
          (world.handle id).path).2 = _ ∧ _ :=
        Handle.becomes_flush hsound.files habsolute (hbacked id source hsource) (hfree hstaged)
      rw [if_neg Bool.false_ne_true, if_neg Bool.false_ne_true, hresult]
      cases houtcome : Handle.outcome world.files source (world.handle id).staged
          (world.handle id).path with
      | error e =>
        rw [houtcome] at hbecomes
        exact ⟨rfl, hbecomes⟩
      | ok placed =>
        rw [houtcome] at hbecomes
        exact ⟨rfl, hbecomes⟩

/-- A file is placed by a handle with staged writes, where its path names a place. -/
theorem namesPlace_of_closing (hsound : Sound world)
    (hfree : (world.handle id).staged.isEmpty = false → FreeBeside world id) {placed : Placed}
    (h : closing world id = .ok (some placed)) :
    (world.handle id).staged.isEmpty = false
      ∧ NamesPlace world.files (world.handle id).path placed.1 := by
  rw [closing] at h
  cases hsource : (world.handle id).source with
  | none =>
    rw [hsource] at h
    cases h
  | some source =>
    rw [hsource] at h
    dsimp only at h
    cases hstaged : (world.handle id).staged.isEmpty with
    | true =>
      rw [hstaged] at h
      cases h
    | false =>
      rw [hstaged, if_neg Bool.false_ne_true] at h
      have habsolute := hsound.isAbsolute id (hsource ▸ Option.some_ne_none _)
      cases houtcome : Handle.outcome world.files source (world.handle id).staged
          (world.handle id).path with
      | error e =>
        rw [houtcome] at h
        cases h
      | ok placed' =>
        rw [houtcome] at h
        cases h
        exact ⟨rfl, Handle.namesPlace_of_outcome habsolute (hfree hstaged) houtcome⟩

/-! ## Handles apart -/

/-- Whether a store has a handle. -/
def Store.Has (store : Store) (id : HandleId) : Prop :=
  ∃ cell ∈ store.cells, cell.handle = some id

theorem Store.eq_or_eq_of_has {key key' : String} {i j : HandleId}
    (h : store.cells = [⟨key, some i⟩, ⟨key', some j⟩]) (hid : store.Has id) : id = i ∨ id = j := by
  obtain ⟨cell, hcell, hid⟩ := hid
  rw [h] at hcell
  rcases List.mem_pair.1 hcell with rfl | rfl
  · exact .inl (Option.some.inj hid).symm
  · exact .inr (Option.some.inj hid).symm

/-- Whether the handles of a store with staged writes have nothing beside their archives, and their
archives do not lie on the way of another handle's path or of the path beside its archive. -/
structure Store.Separate (store : Store) (world : World) : Prop where
  free : ∀ id, store.Has id → (world.handle id).staged.isEmpty = false → FreeBeside world id
  apart : ∀ id id', store.Has id → store.Has id' → id ≠ id' →
    (world.handle id).staged.isEmpty = false →
      ∀ l, NamesPlace world.files (world.handle id).path l →
        l ∉ world.files.way (world.handle id').path
          ∧ l ∉ world.files.way (Handle.temporaryPath (world.handle id').path)

/-- No other handle places a file on the way of a handle's path, or of the path beside it. -/
theorem Store.Separate.not_mem_way (h : store.Separate world) (hsound : Sound world)
    {id id' : HandleId} (hid : store.Has id) (hid' : store.Has id') (hne : id ≠ id')
    {placed : Placed} (hplaced : closing world id = .ok (some placed)) :
    placed.1 ∉ world.files.way (world.handle id').path
      ∧ placed.1 ∉ world.files.way (Handle.temporaryPath (world.handle id').path) := by
  obtain ⟨hstaged, hnames⟩ := namesPlace_of_closing hsound (h.free id hid) hplaced
  exact h.apart id id' hid hid' hne hstaged _ hnames

/-! ## Some handles closed -/

/-- A world that came of another by closing some handles, each with what it comes to alone. -/
structure Partly (base : World) (done : List HandleId) (world : World) : Prop where
  sound : Sound world
  backed : Backed world
  handle : ∀ id ∉ done, world.handle id = base.handle id
  content : ∀ l, (∀ id ∈ done, ∀ placed, closing base id = .ok (some placed) → placed.1 ≠ l) →
    world.files.content? l = base.files.content? l
  placed : ∀ id ∈ done, ∀ placed, closing base id = .ok (some placed) →
    world.files.content? placed.1 = some (.file placed.2)
  data : ∀ j < base.files.files.size, world.files.data j = base.files.data j
  size : base.files.files.size ≤ world.files.files.size
  current : world.files.current = base.files.current

theorem partly_nil (hsound : Sound base) (hbacked : Backed base) : Partly base [] base where
  sound := hsound
  backed := hbacked
  handle _ _ := rfl
  content _ _ := rfl
  placed _ hid := absurd hid List.not_mem_nil
  data _ _ := rfl
  size := Nat.le_refl _
  current := rfl

/-- What is logged makes no difference. -/
theorem Partly.of_eq {done : List HandleId} (h : Partly base done world)
    (hhandles : world'.handles = world.handles) (hfiles : world'.files = world.files) :
    Partly base done world' := by
  obtain ⟨files, handles, log⟩ := world
  obtain ⟨files', handles', log'⟩ := world'
  cases hhandles
  cases hfiles
  exact { h with sound := h.sound.of_eq rfl rfl }

/-- The way of a handle that is still open looks as it did before any was closed. -/
theorem Partly.content?_way {done : List HandleId} (h : Partly base done world)
    (hsound : Sound base) (hseparate : store.Separate base) (hdone : ∀ i ∈ done, store.Has i)
    (hid : store.Has id) (hnew : id ∉ done) {l : Location}
    (hl : l ∈ base.files.way (base.handle id).path
      ∨ l ∈ base.files.way (Handle.temporaryPath (base.handle id).path)) :
    world.files.content? l = base.files.content? l := by
  refine h.content l fun i hi placed hplaced heq => ?_
  have hne : i ≠ id := fun heq => hnew (heq ▸ hi)
  obtain ⟨hway, hbeside⟩ := hseparate.not_mem_way hsound (hdone i hi) hid hne hplaced
  subst heq
  exact hl.elim hway hbeside

/-- Closing a further handle comes to what it comes to alone. -/
theorem Partly.closing_eq {done : List HandleId} (h : Partly base done world)
    (hsound : Sound base) (hbacked : Backed base) (hseparate : store.Separate base)
    (hdone : ∀ i ∈ done, store.Has i) (hid : store.Has id) (hnew : id ∉ done) :
    closing world id = closing base id
      ∧ ((world.handle id).staged.isEmpty = false → FreeBeside world id) := by
  have hway {l : Location} (hl : l ∈ base.files.way (base.handle id).path
      ∨ l ∈ base.files.way (Handle.temporaryPath (base.handle id).path)) :=
    h.content?_way hsound hseparate hdone hid hnew hl
  have hhandle := h.handle id hnew
  constructor
  · rw [closing, closing, hhandle]
    cases hsource : (base.handle id).source with
    | none => rfl
    | some source =>
      dsimp only
      cases hstaged : (base.handle id).staged.isEmpty with
      | true => rfl
      | false =>
        have habsolute := hsound.isAbsolute id (hsource ▸ Option.some_ne_none _)
        rw [Handle.outcome_congr hsound.files h.sound.files habsolute
          (hseparate.free id hid hstaged) h.current (h.data _ (hbacked id source hsource))
          (fun l hl => hway (.inl hl)) fun l hl => hway (.inr hl)]
  · intro hstaged l node slash hfound
    rw [hhandle] at hstaged hfound
    -- what would be found beside the archive now was found there before
    have hlook := look_congr .entry (fun l hl => hway (.inr hl)) h.current
    rw [look_eq_found_iff.2 ⟨node, hfound, rfl⟩] at hlook
    obtain ⟨node', hbefore, -⟩ := look_eq_found_iff.1 hlook.symm
    exact hseparate.free id hid hstaged l node' slash hbefore

/-- Closing a further handle leads to a world in which it is closed, too. -/
theorem Partly.closeHandle {done : List HandleId} (h : Partly base done world)
    (hsound : Sound base) (hbacked : Backed base) (hseparate : store.Separate base)
    (hdone : ∀ i ∈ done, store.Has i) (hid : store.Has id) (hnew : id ∉ done) :
    (world.closeHandle id).2 = (base.closeHandle id).2
      ∧ Partly base (id :: done) (world.closeHandle id).1 := by
  obtain ⟨hclosing, hfree⟩ := h.closing_eq hsound hbacked hseparate hdone hid hnew
  obtain ⟨hresult, hbecomes⟩ := becomes_closeHandle h.sound h.backed hfree
  obtain ⟨hresult₀, -⟩ := becomes_closeHandle hsound hbacked (hseparate.free id hid)
  rw [hclosing] at hresult hbecomes
  refine ⟨hresult.trans hresult₀.symm, ?_⟩
  -- only what this handle places can be seen to be new
  have hcontent : ∀ l, (∀ placed, closing base id = .ok (some placed) → placed.1 ≠ l) →
      (world.closeHandle id).1.files.content? l = world.files.content? l := by
    intro l hl
    rw [hbecomes.content]
    cases hbase : closing base id with
    | error e => rfl
    | ok placed =>
      cases placed with
      | none => rfl
      | some placed => exact if_neg (Ne.symm (hl placed hbase))
  refine {
    sound := (changes_closeHandle h.sound id).sound
    backed := h.backed.of_remains (remains_closeHandle ..) hbecomes.size
    handle := fun i hi => ?_
    content := fun l hl => ?_
    placed := fun i hi placed hplaced => ?_
    data := fun j hj =>
      (hbecomes.data j (Nat.lt_of_lt_of_le hj h.size)).trans (h.data j hj)
    size := Nat.le_trans h.size hbecomes.size
    current := hbecomes.current.trans h.current }
  · obtain ⟨hne, hi⟩ := not_or.1 (List.mem_cons.not.1 hi)
    rw [Store.handle_closeHandle, if_neg hne]
    exact h.handle i hi
  · obtain ⟨hlast, hl⟩ := List.forall_mem_cons.1 hl
    rw [hcontent l hlast]
    exact h.content l hl
  · rcases List.mem_cons.1 hi with rfl | hold
    · rw [hbecomes.content, hplaced]
      exact if_pos rfl
    · -- what was placed before is not where this handle places its file
      rw [hcontent placed.1]
      · exact h.placed i hold placed hplaced
      · intro placed' hplaced' heq
        have hne : i ≠ id := fun heq => hnew (heq ▸ hold)
        obtain ⟨hstaged, hnames⟩ := namesPlace_of_closing hsound (hseparate.free id hid) hplaced'
        obtain ⟨haway, -⟩ := hseparate.not_mem_way hsound (hdone i hold) hid hne hplaced
        exact haway (heq ▸ hnames.mem_way)

/-! ## All handles closed -/

/-- The failure of closing the handle of a cell alone, if there is one. -/
def failureOf (base : World) (cell : Cell) : Option CloseFailure :=
  cell.handle.bind fun id =>
    match (base.closeHandle id).2 with
    | .ok () => none
    | .error error => some ⟨cell.key, error⟩

theorem failureOf_eq_some_iff {cell : Cell} {failure : CloseFailure} :
    failureOf base cell = some failure ↔ cell.key = failure.path
      ∧ ∃ id, cell.handle = some id ∧ (base.closeHandle id).2 = .error failure.error := by
  obtain ⟨key, handle⟩ := cell
  obtain ⟨path, error⟩ := failure
  cases handle with
  | none => simp [failureOf]
  | some id =>
    rw [failureOf, Option.bind_some]
    cases hresult : (base.closeHandle id).2 with
    | ok done => simp [hresult]
    | error e => simp [hresult]

/-- Closing the handles of cells in turn gives the failures of closing each alone. -/
theorem Partly.closeCells {done : List HandleId} {cells : List Cell} (h : Partly base done world)
    (hsound : Sound base) (hbacked : Backed base) (hseparate : store.Separate base)
    (hdone : ∀ i ∈ done, store.Has i) (hcells : ∀ cell ∈ cells, cell ∈ store.cells)
    (hnew : ∀ cell ∈ cells, ∀ id, cell.handle = some id → id ∉ done)
    (hapart : cells.Pairwise fun a b => ∀ id, a.handle = some id → b.handle ≠ some id) :
    (Store.closeCells world cells).2 = cells.filterMap (failureOf base)
      ∧ ∃ done', Partly base done' (Store.closeCells world cells).1
        ∧ (∀ id ∈ done', store.Has id)
        ∧ ∀ id, id ∈ done ∨ (∃ cell ∈ cells, cell.handle = some id) → id ∈ done' := by
  induction cells generalizing world done with
  | nil => exact ⟨rfl, done, h, hdone, fun id hid => hid.resolve_right (by simp)⟩
  | cons cell rest ih =>
    obtain ⟨hcell, hrest⟩ := List.forall_mem_cons.1 hcells
    obtain ⟨hnewCell, hnewRest⟩ := List.forall_mem_cons.1 hnew
    obtain ⟨hapartCell, hapartRest⟩ := List.pairwise_cons.1 hapart
    obtain ⟨text, handle⟩ := cell
    cases handle with
    | none =>
      obtain ⟨hfailures, done', hpartly, hhas, hall⟩ := ih h hdone hrest hnewRest hapartRest
      refine ⟨hfailures, done', hpartly, hhas, fun id hid => hall id ?_⟩
      simpa using hid
    | some id =>
      -- its handle is closed as if it were alone, and the others are still to be closed
      have hid : store.Has id := ⟨_, hcell, rfl⟩
      obtain ⟨hresult, hclosed⟩ :=
        h.closeHandle hsound hbacked hseparate hdone hid (hnewCell id rfl)
      have hdone' : ∀ i ∈ id :: done, store.Has i := List.forall_mem_cons.2 ⟨hid, hdone⟩
      have hnewRest' : ∀ cell ∈ rest, ∀ i, cell.handle = some i → i ∉ id :: done := by
        intro cell hmem i hi
        rw [List.mem_cons, not_or]
        exact ⟨fun heq => hapartCell cell hmem id rfl (heq ▸ hi), hnewRest cell hmem i hi⟩
      have hmem (i : HandleId) (hi : i ∈ done
          ∨ ∃ cell ∈ (⟨text, some id⟩ : Cell) :: rest, cell.handle = some i) :
          i ∈ id :: done ∨ ∃ cell ∈ rest, cell.handle = some i := by
        rcases hi with hold | ⟨cell, hcell, hcellId⟩
        · exact .inl (List.mem_cons_of_mem _ hold)
        · rcases List.mem_cons.1 hcell with rfl | hcell
          · cases hcellId
            exact .inl (List.mem_cons_self ..)
          · exact .inr ⟨cell, hcell, hcellId⟩
      obtain ⟨next, hhandles, hfiles, hcells'⟩ := Store.exists_closeCells_cons world text id rest
      obtain ⟨hfailures, done', hpartly, hhas, hall⟩ :=
        ih (hclosed.of_eq hhandles hfiles) hdone' hrest hnewRest' hapartRest
      rw [hcells']
      refine ⟨?_, done', hpartly, hhas, fun i hi => hall i (hmem i hi)⟩
      dsimp only
      rw [hresult, hfailures, List.filterMap_cons, failureOf, Option.bind_some]
      cases (base.closeHandle id).2 <;> rfl

/-- Whether the cells of a store are of different places and have different handles. -/
structure Store.Distinct (store : Store) : Prop where
  keys : store.cells.Pairwise fun a b => ¬ sameKey a.key b.key = true
  handles : store.cells.Pairwise fun a b => ∀ id, a.handle = some id → b.handle ≠ some id

theorem Registered.distinct (h : Registered store world) : store.Distinct := by
  refine ⟨h.apart, h.apart.imp_of_mem fun {a b} ha hb hab id hid hid' => hab ?_⟩
  -- one handle has one path, which is that of its cell
  have hpath := (h.known a ha id hid).2
  have hpath' := (h.known b hb id hid').2
  exact Store.sameKey_iff.2
    ((Store.sameKey_iff.1 hpath).symm.trans (Store.sameKey_iff.1 hpath'))

/-- Cells are so in the order in which they are closed as well. -/
theorem Store.Distinct.pairwise_ordered (h : store.Distinct) :
    store.ordered.Pairwise (fun a b => ¬ sameKey a.key b.key = true)
      ∧ store.ordered.Pairwise fun a b => ∀ id, a.handle = some id → b.handle ≠ some id := by
  have hperm : store.ordered.Perm store.cells := List.mergeSort_perm store.cells _
  refine ⟨(hperm.pairwise_iff fun hab hba => ?_).2 h.keys,
    (hperm.pairwise_iff fun hab id hid hid' => ?_).2 h.handles⟩
  · exact hab (sameKey_iff.2 (sameKey_iff.1 hba).symm)
  · exact hab id hid' hid

/-- Each path shows what it shows when its handle is closed alone. -/
theorem Partly.look_eq {done : List HandleId} (h : Partly base done world) (hsound : Sound base)
    (hbacked : Backed base) (hseparate : store.Separate base) (hdone : ∀ i ∈ done, store.Has i)
    (hid : id ∈ done) (purpose : Purpose) :
    world.files.look purpose (base.handle id).path
      = (base.closeHandle id).1.files.look purpose (base.handle id).path := by
  have hhas := hdone id hid
  obtain ⟨-, hbecomes⟩ := becomes_closeHandle hsound hbacked (hseparate.free id hhas)
  refine look_congr purpose (fun l hl => ?_) (h.current.trans hbecomes.current.symm)
  have hway := hbecomes.ended.way_subset hbecomes.current hl
  by_cases hown : ∃ placed, closing base id = .ok (some placed) ∧ placed.1 = l
  · -- the handle's own file stands there in both
    obtain ⟨placed, hplaced, rfl⟩ := hown
    rw [h.placed id hid placed hplaced, hbecomes.content, hplaced]
    exact (if_pos rfl).symm
  · push Not at hown
    have hsame : world.files.content? l = base.files.content? l := by
      refine h.content l fun i hi placed hplaced heq => ?_
      by_cases hne : i = id
      · subst hne
        exact hown placed hplaced heq
      · exact (hseparate.not_mem_way hsound (hdone i hi) hhas hne hplaced).1 (heq ▸ hway)
    rw [hsame, hbecomes.content]
    cases hclosing : closing base id with
    | error e => rfl
    | ok placed =>
      cases placed with
      | none => rfl
      | some placed => exact (if_neg (Ne.symm (hown placed hclosing))).symm

/-! ## A store that is empty -/

theorem Store.closeAll_empty (world : World) :
    Store.empty.closeAll world = (.empty, world, []) := by
  rw [closeAll, ordered, empty, List.mergeSort_nil, closeCells]

theorem Store.drop_empty (world : World) : Store.empty.drop world = world := by
  rw [drop, closeAll_empty]
  rfl

/-- An archive is opened as it is, for there is no handle of it. -/
theorem Store.handle_empty {path key : String} (hkey : Store.key world.files path = .ok key) :
    (Store.empty.handle world path).2.2
        = (Handle.openAt world.files key).map (fun _ => world.handles.size)
      ∧ ∀ handle, Handle.openAt world.files key = .ok handle →
        (Store.empty.handle world path).2.1.handle world.handles.size = handle := by
  have hasks := Store.empty.asks world path
  generalize (Store.empty.handle world path).1 = store' at hasks ⊢
  generalize (Store.empty.handle world path).2.1 = world' at hasks ⊢
  generalize (Store.empty.handle world path).2.2 = result at hasks ⊢
  cases hasks with
  | invalid keyed => cases hkey.symm.trans keyed
  | held keyed held => cases held
  | refused keyed vacant refusal =>
    cases hkey.symm.trans keyed
    rw [refusal]
    refine ⟨rfl, fun handle hopen => ?_⟩
    cases hopen
  | opened keyed vacant opening =>
    cases hkey.symm.trans keyed
    rw [opening]
    refine ⟨rfl, fun handle hopen => ?_⟩
    cases hopen
    rw [World.handle_push, if_pos rfl]

/-! ## Closing a store -/

theorem Store.mem_failures_iff {failure : CloseFailure} :
    failure ∈ store.ordered.filterMap (failureOf world)
      ↔ ∃ cell ∈ store.cells, cell.key = failure.path
        ∧ ∃ id, cell.handle = some id ∧ (world.closeHandle id).2 = .error failure.error := by
  simp only [List.mem_filterMap, ordered, List.mem_mergeSort, failureOf_eq_some_iff]

theorem Store.failures_eq_nil_iff :
    store.ordered.filterMap (failureOf world) = []
      ↔ ∀ id, store.Has id → (world.closeHandle id).2 = .ok () := by
  rw [List.eq_nil_iff_forall_not_mem]
  constructor
  · rintro hnone id ⟨cell, hcell, hid⟩
    cases hresult : (world.closeHandle id).2 with
    | ok done => rfl
    | error e =>
      have hmem : ⟨cell.key, e⟩ ∈ store.ordered.filterMap (failureOf world) :=
        mem_failures_iff.2 ⟨cell, hcell, rfl, id, hid, hresult⟩
      exact absurd hmem (hnone _)
  · intro hok failure hfailure
    obtain ⟨cell, hcell, -, id, hid, hresult⟩ := mem_failures_iff.1 hfailure
    rw [hok id ⟨cell, hcell, hid⟩] at hresult
    cases hresult

/-- Failures are in the order of the cells, each with the key of its cell. -/
theorem Registered.pairwise_failures (h : Registered store world) :
    (store.ordered.filterMap (failureOf world)).Pairwise fun a b =>
      Store.namesLe (Path.names a.path) (Path.names b.path) = true
        ∧ ¬ Store.sameKey a.path b.path = true := by
  obtain ⟨hkeys, -⟩ := h.distinct.pairwise_ordered
  refine (store.pairwise_ordered.and hkeys).filterMap (failureOf world) ?_
  rintro a b ⟨hle, hapart⟩ failure ha failure' hb
  rw [← (failureOf_eq_some_iff.1 ha).1, ← (failureOf_eq_some_iff.1 hb).1]
  exact ⟨hle, hapart⟩

/-- Closing the handles of a store in the order of their paths gives the failures of closing each
alone, and leads to a world in which all of them are closed. -/
theorem Store.Separate.closeCells_ordered (h : store.Separate world) (hsound : Sound world)
    (hbacked : Backed world) (hregistered : Registered store world) :
    (Store.closeCells world store.ordered).2 = store.ordered.filterMap (failureOf world)
      ∧ ∃ done, Partly world done (Store.closeCells world store.ordered).1
        ∧ ∀ id, id ∈ done ↔ store.Has id := by
  obtain ⟨-, hhandles⟩ := hregistered.distinct.pairwise_ordered
  obtain ⟨hfailures, done, hpartly, hdone, hall⟩ :=
    (partly_nil hsound hbacked).closeCells hsound hbacked h
      (fun _ hi => absurd hi List.not_mem_nil) (fun cell hcell => List.mem_mergeSort.1 hcell)
      (fun _ _ _ _ => List.not_mem_nil) hhandles
  refine ⟨hfailures, done, hpartly, fun id => ⟨hdone id, ?_⟩⟩
  rintro ⟨cell, hcell, hid⟩
  exact hall id (.inr ⟨cell, List.mem_mergeSort.2 hcell, hid⟩)

/-- Wherever events have led, if the handles of a store are separate, closing the store fails for
exactly those handles whose own close fails, once for each and with its error, in the order of their
paths. Each path shows afterwards what it shows when its handle is closed alone. The store is empty
then, all handles are closed, closing or giving up the store again changes nothing, and archives are
opened anew as they are. -/
theorem closeAll_independent {files : FileSystem} (hfiles : WellFormed files)
    (hruns : Runs .empty (.ofFiles files) events store world) (hseparate : store.Separate world)
    {failures : List CloseFailure} (hclose : store.closeAll world = (closed, after, failures)) :
    (failures = [] ↔ ∀ id, store.Has id → (world.closeHandle id).2 = .ok ())
      ∧ (∀ failure, failure ∈ failures ↔ ∃ cell ∈ store.cells, cell.key = failure.path
        ∧ ∃ id, cell.handle = some id ∧ (world.closeHandle id).2 = .error failure.error)
      ∧ failures.Pairwise (fun a b => Store.namesLe (Path.names a.path) (Path.names b.path) = true
        ∧ ¬ Store.sameKey a.path b.path = true)
      ∧ (∀ id, store.Has id → ∀ purpose, after.files.look purpose (world.handle id).path
        = (world.closeHandle id).1.files.look purpose (world.handle id).path)
      ∧ closed = .empty ∧ closed.openHandles = 0 ∧ (∀ id, (after.handle id).source = none)
      ∧ closed.closeAll after = (closed, after, []) ∧ closed.drop after = after
      ∧ ∀ path key, Store.key after.files path = .ok key →
        (closed.handle after path).2.2
            = (Handle.openAt after.files key).map (fun _ => after.handles.size)
          ∧ ∀ handle, Handle.openAt after.files key = .ok handle →
            (closed.handle after path).2.1.handle after.handles.size = handle := by
  have hsound := hruns.sound (sound_ofFiles hfiles)
  have hbacked := hruns.backed hfiles
  have hregistered := hruns.registered (registered_ofFiles files)
  -- the handles are closed one by one, and those that are left are not touched
  obtain ⟨hfailures, done, hpartly, hdone⟩ :=
    hseparate.closeCells_ordered hsound hbacked hregistered
  have hafter : Registered .empty (Store.closeCells world store.ordered).1 :=
    hregistered.apply .closeAll
  rw [Store.closeAll] at hclose
  rcases hcells : Store.closeCells world store.ordered with ⟨after', failures'⟩
  rw [hcells] at hclose hfailures hpartly hafter
  cases hclose
  dsimp only at hfailures
  subst hfailures
  refine ⟨Store.failures_eq_nil_iff, fun failure => Store.mem_failures_iff,
    hregistered.pairwise_failures, fun id hid purpose => ?_, rfl, rfl, fun id => ?_,
    Store.closeAll_empty after, Store.drop_empty after, fun path key hkey => ?_⟩
  · exact hpartly.look_eq hsound hbacked hseparate (fun i hi => (hdone i).1 hi) ((hdone id).2 hid)
      purpose
  · exact hafter.closed id fun cell hcell => absurd hcell List.not_mem_nil
  · exact Store.handle_empty hkey

/-! ## An archive that is gone -/

/-- The data of an archive of one entry. -/
def singleArchive : FileData :=
  ⟨(Zip.encode [oneByte 1] []).toArray, newFileMode, .disk⟩

/-- Two archives beside each other. -/
def pairFiles : FileSystem :=
  ⟨[(["a.jar"], .file 0), (["b.jar"], .file 1)], #[singleArchive, singleArchive], []⟩

/-- The store and the world after writes to both. -/
def pairState : Store × World :=
  run .empty (.ofFiles pairFiles) [.write "a.jar" "a" [2], .write "b.jar" "a" [3]]

/-- The second archive is gone when the store is closed. -/
def goneFiles : FileSystem :=
  ⟨[(["a.jar"], .file 0)], #[singleArchive, singleArchive], []⟩

theorem pairState_eq : pairState.1.cells = [⟨"/a.jar", some 0⟩, ⟨"/b.jar", some 1⟩]
    ∧ pairState.2.files.files.size = 2
    ∧ (pairState.2.handle 0).path = "/a.jar" ∧ (pairState.2.handle 1).path = "/b.jar"
    ∧ ((pairState.2.withFiles goneFiles).closeHandle 1).2
      = .error (.io "/b.jar" (.os .notFound)) := by
  decide +kernel

/-- The archive disappears after the writes. -/
theorem exists_runs_goneFiles : ∃ events, Runs .empty (.ofFiles pairFiles) events pairState.1
    (pairState.2.withFiles goneFiles) := by
  obtain ⟨-, hsize, -⟩ := pairState_eq
  obtain ⟨events, hwritten⟩ : ∃ events,
      Runs .empty (.ofFiles pairFiles) events pairState.1 pairState.2 := by
    rw [pairState]
    exact ⟨_, Runs.start.append_uses _ (by simp [Use.handle?])⟩
  have hgone : WellFormed goneFiles :=
    wellFormed_of_forall (by simp [goneFiles]) (by simp [goneFiles])
  exact ⟨_, hwritten.change ⟨hgone, Nat.le_of_eq hsize⟩⟩

theorem way_goneFiles : goneFiles.way "/a.jar" = [["a.jar"]]
    ∧ goneFiles.way (Handle.temporaryPath "/a.jar") = [["a.jar.tmp"]]
    ∧ goneFiles.way "/b.jar" = [["b.jar"]]
    ∧ goneFiles.way (Handle.temporaryPath "/b.jar") = [["b.jar.tmp"]]
    ∧ goneFiles.resolve .entry (Handle.temporaryPath "/a.jar") = .ok (.vacant ["a.jar.tmp"] false)
    ∧ goneFiles.resolve .entry (Handle.temporaryPath "/b.jar")
      = .ok (.vacant ["b.jar.tmp"] false) :=
  ⟨rfl, rfl, rfl, rfl, rfl, rfl⟩

/-- What is written to the archive that is still there is found in it, as if its handle had been
closed alone, and the failure of the other one is the only one. -/
theorem closeAll_independent_pairState :
    pairState.1.Separate (pairState.2.withFiles goneFiles)
      ∧ ⟨"/b.jar", .io "/b.jar" (.os .notFound)⟩
        ∈ (pairState.1.closeAll (pairState.2.withFiles goneFiles)).2.2
      ∧ (pairState.1.closeAll (pairState.2.withFiles goneFiles)).2.1.files.look .inspect "/a.jar"
        = ((pairState.2.withFiles goneFiles).closeHandle 0).1.files.look .inspect "/a.jar" := by
  obtain ⟨hcells, -, hpath₀, hpath₁, hfails⟩ := pairState_eq
  obtain ⟨hway₀, hbeside₀, hway₁, hbeside₁, hfree₀, hfree₁⟩ := way_goneFiles
  obtain ⟨events, hruns⟩ := exists_runs_goneFiles
  have hfiles : WellFormed pairFiles :=
    wellFormed_of_forall (by simp [pairFiles]) (by simp [pairFiles])
  have hpath (world : World) (id : HandleId) :
      ((world.withFiles goneFiles).handle id).path = (world.handle id).path
        ∧ (world.withFiles goneFiles).files = goneFiles := ⟨rfl, rfl⟩
  have hseparate : pairState.1.Separate (pairState.2.withFiles goneFiles) := by
    constructor
    · intro id hid _ l node slash hfound
      rw [(hpath _ id).1, (hpath _ id).2] at hfound
      rcases Store.eq_or_eq_of_has hcells hid with rfl | rfl
      · rw [hpath₀] at hfound
        cases hfree₀.symm.trans hfound
      · rw [hpath₁] at hfound
        cases hfree₁.symm.trans hfound
    · intro id id' hid hid' hne _ l hnames
      have hway := hnames.mem_way
      rw [(hpath _ id).1, (hpath _ id).2] at hway
      rw [(hpath _ id').1, (hpath _ id').2]
      rcases Store.eq_or_eq_of_has hcells hid with rfl | rfl <;>
        rcases Store.eq_or_eq_of_has hcells hid' with rfl | rfl
      · exact absurd rfl hne
      · rw [hpath₀, hway₀, List.mem_singleton] at hway
        rw [hpath₁, hway, hway₁, hbeside₁]
        decide
      · rw [hpath₁, hway₁, List.mem_singleton] at hway
        rw [hpath₀, hway, hway₀, hbeside₀]
        decide
      · exact absurd rfl hne
  obtain ⟨-, hfailures, -, hlook, -⟩ := closeAll_independent hfiles hruns hseparate rfl
  refine ⟨hseparate, (hfailures _).2 ⟨⟨"/b.jar", some 1⟩, ?_, rfl, 1, rfl, hfails⟩, ?_⟩
  · rw [hcells]
    exact List.mem_cons_of_mem _ (List.mem_singleton_self _)
  · have hfirst := hlook 0 ⟨⟨"/a.jar", some 0⟩, by rw [hcells]; exact List.mem_cons_self .., rfl⟩
      .inspect
    rw [(hpath _ 0).1, hpath₀] at hfirst
    exact hfirst

/-! ## A link that gives way to a file -/

/-- The files while two archives are written: the first is replaced by a directory with the second,
and that by a link to a directory with another archive of the second one's name. -/
def linkedFiles : Nat → FileSystem
  | 0 => ⟨[(["x"], .file 0)], #[singleArchive], []⟩
  | 1 => ⟨[(["x"], .directory newDirectoryMode), (["x", "b.jar"], .file 1)],
      #[singleArchive, singleArchive], []⟩
  | _ => ⟨[(["x"], .link "y"), (["y"], .directory newDirectoryMode), (["y", "b.jar"], .file 2)],
      #[singleArchive, singleArchive, singleArchive], []⟩

/-- The store and the world after a write to the first archive. -/
def firstState : Store × World := run .empty (.ofFiles (linkedFiles 0)) [.write "x" "a" [2]]

/-- The store and the world after a write to the second. -/
def secondState : Store × World :=
  run firstState.1 (firstState.2.withFiles (linkedFiles 1)) [.write "x/b.jar" "a" [3]]

/-- The world once the link is there. -/
def linkedWorld : World := secondState.2.withFiles (linkedFiles 2)

theorem secondState_eq : secondState.1.cells = [⟨"/x", some 0⟩, ⟨"/x/b.jar", some 1⟩]
    ∧ (linkedWorld.handle 0).path = "/x" ∧ (linkedWorld.handle 1).path = "/x/b.jar"
    ∧ firstState.2.files.files.size = 1 ∧ secondState.2.files.files.size = 2 := by
  decide +kernel

theorem wellFormed_linkedFiles (n : Nat) : WellFormed (linkedFiles n) := by
  refine wellFormed_of_forall ?_ ?_
  · rcases n with - | - | n <;> simp [linkedFiles]
  · rcases n with - | - | n <;> simp [linkedFiles]

/-- It is writes, and changes of the files in between, that lead there. -/
theorem exists_runs_linkedWorld :
    ∃ events, Runs .empty (.ofFiles (linkedFiles 0)) events secondState.1 linkedWorld := by
  obtain ⟨-, -, -, hsize₁, hsize₂⟩ := secondState_eq
  have hfirst : Runs .empty (.ofFiles (linkedFiles 0)) [.use (.write "x" "a" [2])] firstState.1
      firstState.2 := Runs.start.append_uses [.write "x" "a" [2]] (by simp [Use.handle?])
  have houtside₁ : Outside firstState.2.files (linkedFiles 1) :=
    ⟨wellFormed_linkedFiles 1, Nat.le_trans (Nat.le_of_eq hsize₁) (by decide)⟩
  have hsecond : Runs .empty (.ofFiles (linkedFiles 0)) _ secondState.1 secondState.2 :=
    (hfirst.change houtside₁).append_uses [.write "x/b.jar" "a" [3]] (by simp [Use.handle?])
  have houtside₂ : Outside secondState.2.files (linkedFiles 2) :=
    ⟨wellFormed_linkedFiles 2, Nat.le_trans (Nat.le_of_eq hsize₂) (by decide)⟩
  exact ⟨_, hsecond.change houtside₂⟩

/-- Nothing stands beside the archives. -/
theorem resolve_linkedFiles :
    (linkedFiles 2).resolve .entry (Handle.temporaryPath "/x") = .ok (.vacant ["x.tmp"] false)
      ∧ (linkedFiles 2).resolve .entry (Handle.temporaryPath "/x/b.jar")
        = .ok (.vacant ["y", "b.jar.tmp"] false) :=
  ⟨rfl, rfl⟩

/-- Each handle can be closed alone. Closed one after the other, the second cannot, since the link
on its way is gone. -/
theorem closes_linkedWorld :
    (linkedWorld.closeHandle 0).2 = .ok () ∧ (linkedWorld.closeHandle 1).2 = .ok ()
      ∧ (Store.closeCells linkedWorld [⟨"/x", some 0⟩, ⟨"/x/b.jar", some 1⟩]).2 ≠ [] := by
  decide +kernel

/-- It is not so that closing a store fails only if closing some handle alone fails, even if no
archive's path is another's with an ending and nothing stands beside any archive. -/
theorem not_forall_closeAll_eq_nil_iff :
    ¬ ∀ (files : FileSystem) (events : List Event) (store : Store) (world : World),
      WellFormed files → Runs .empty (.ofFiles files) events store world →
        (∀ id id', store.Has id → store.Has id' →
          (world.handle id').path ≠ Handle.temporaryPath (world.handle id).path) →
        (∀ id, store.Has id → FreeBeside world id) →
          ((store.closeAll world).2.2 = []
            ↔ ∀ id, store.Has id → (world.closeHandle id).2 = .ok ()) := by
  intro h
  obtain ⟨hcells, hpath₀, hpath₁, -⟩ := secondState_eq
  obtain ⟨hfree₀, hfree₁⟩ := resolve_linkedFiles
  obtain ⟨hok₀, hok₁, hlost⟩ := closes_linkedWorld
  obtain ⟨events, hruns⟩ := exists_runs_linkedWorld
  have hiff := h _ _ _ _ (wellFormed_linkedFiles 0) hruns ?_ ?_
  · -- the cells are in order as they are
    have hordered : secondState.1.ordered = [⟨"/x", some 0⟩, ⟨"/x/b.jar", some 1⟩] := by
      rw [Store.ordered, hcells]
      exact List.mergeSort_of_pairwise (by decide)
    have hcloseAll (store : Store) (world : World) :
        (store.closeAll world).2.2 = (Store.closeCells world store.ordered).2 := rfl
    have hfailures : (secondState.1.closeAll linkedWorld).2.2 ≠ [] := by
      rw [hcloseAll, hordered]
      exact hlost
    refine hfailures (hiff.2 fun id hid => ?_)
    rcases Store.eq_or_eq_of_has hcells hid with rfl | rfl
    · exact hok₀
    · exact hok₁
  · intro id id' hid hid'
    rcases Store.eq_or_eq_of_has hcells hid with rfl | rfl <;>
      rcases Store.eq_or_eq_of_has hcells hid' with rfl | rfl <;>
    · simp only [hpath₀, hpath₁]
      decide
  · intro id hid l node slash hfound
    have hfiles₂ : linkedWorld.files = linkedFiles 2 := by rw [linkedWorld, World.withFiles]
    rw [hfiles₂] at hfound
    rcases Store.eq_or_eq_of_has hcells hid with rfl | rfl
    · rw [hpath₀] at hfound
      cases hfree₀.symm.trans hfound
    · rw [hpath₁] at hfound
      cases hfree₁.symm.trans hfound

end Reline.Archive
