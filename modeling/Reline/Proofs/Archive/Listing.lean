/-
  Reline.Proofs.Archive.Listing

  What an archive lists after staged writes were put into its file.

  If its directory lists each name once and all staged writes are to names that
  it lists, the new archive lists the same names in the same order. Under the
  names that were written it has the data that was staged, under all others what
  was there before, be it data or an error.
-/

import Reline.Proofs.Archive.Durability
import Reline.Proofs.Archive.Rewriting

namespace Reline.Archive

open FileSystem
open Zip (Entry Item Directory Presents Reopens lastContent)

/-- The names that an archive lists, in order, each with what its entry gives. -/
def Source.listing (source : Source) (fs : FileSystem) : List (String × Except Zip.Error Bytes) :=
  source.directory.entries.map fun e => (e.name, e.read (fs.data source.file).bytes)

/-- A listed name with its staged write, if there is one, and else as it is. -/
def overlay (staged : OrderedTable String Bytes) (listed : String × Except Zip.Error Bytes) :
    String × Except Zip.Error Bytes :=
  match staged.get? listed.1 with
  | some bytes => (listed.1, .ok bytes)
  | none => listed

/-- What names give, if they are listed. -/
abbrev Contents := String → Option (Except Zip.Error Bytes)

/-- What the names that an archive lists give. -/
def Source.contents (source : Source) (fs : FileSystem) : Contents :=
  lastContent Prod.fst Prod.snd (source.listing fs)

/-- Contents with staged writes to listed names. -/
def Contents.overlaid (contents : Contents) (staged : OrderedTable String Bytes) : Contents :=
  fun n => (contents n).map fun content => (overlay staged (n, content)).2

variable {file : Buffer} {staged left : OrderedTable String Bytes} {directory : Directory}
  {items : List Item}

/-! ## Looking up names -/

theorem overlay_fst (staged : OrderedTable String Bytes)
    (listed : String × Except Zip.Error Bytes) : (overlay staged listed).1 = listed.1 := by
  rw [overlay]
  split <;> rfl

/-- Looking up a name among what is staged over a list is looking it up in the list first. -/
theorem lastContent_map_overlay (staged : OrderedTable String Bytes)
    (list : List (String × Except Zip.Error Bytes)) :
    lastContent Prod.fst Prod.snd (list.map (overlay staged))
      = Contents.overlaid (lastContent Prod.fst Prod.snd list) staged := by
  funext n
  induction list with
  | nil => rfl
  | cons listed rest ih =>
    rw [Contents.overlaid] at ih ⊢
    rw [List.map_cons, Zip.lastContent_cons, Zip.lastContent_cons, ih, overlay_fst, Option.map_or]
    by_cases hname : listed.1 = n
    · subst hname
      rw [if_pos rfl, if_pos rfl, Option.map_some]
    · rw [if_neg hname, if_neg hname, Option.map_none]

theorem contained_eq (fs : FileSystem) (source : Source) (entry : String) :
    contained fs source entry = source.contents fs (normalizeEntry entry) := by
  apply (Zip.lastContent_eq_of_forall₂ _ _).symm
  rw [Source.listing, List.forall₂_map_right_iff]
  exact List.forall₂_same.2 fun e _ => ⟨rfl, rfl⟩

/-- A name that is listed gives something. -/
theorem Source.contents_ne_none {source : Source} {fs : FileSystem} {n : String} :
    source.contents fs n ≠ none ↔ n ∈ source.directory.entries.map Entry.name := by
  rw [Source.contents, Source.listing]
  constructor
  · intro h
    obtain ⟨content, hcontent⟩ := Option.ne_none_iff_exists'.1 h
    obtain ⟨listed, hlisted, hname, -⟩ := Zip.exists_mem_of_lastContent hcontent
    obtain ⟨e, he, rfl⟩ := List.mem_map.1 hlisted
    exact List.mem_map.2 ⟨e, he, hname⟩
  · intro h
    obtain ⟨e, he, rfl⟩ := List.mem_map.1 h
    have hlisted : (e.name, e.read (fs.data source.file).bytes)
        ∈ source.directory.entries.map fun e => (e.name, e.read (fs.data source.file).bytes) :=
      List.mem_map.2 ⟨e, he, rfl⟩
    obtain ⟨content, hcontent⟩ : ∃ content, lastContent Prod.fst Prod.snd _ e.name = some content :=
      Zip.exists_lastContent hlisted
    rw [hcontent]
    exact Option.some_ne_none _

theorem Contents.overlaid_of_some {contents : Contents} {n : String} {bytes : Bytes}
    (h : contents n ≠ none) (hstaged : staged.get? n = some bytes) :
    contents.overlaid staged n = some (.ok bytes) := by
  obtain ⟨content, hcontent⟩ := Option.ne_none_iff_exists'.1 h
  rw [overlaid, hcontent, Option.map_some, overlay, hstaged]

theorem Contents.overlaid_of_none {contents : Contents} {n : String}
    (hstaged : staged.get? n = none) : contents.overlaid staged n = contents n := by
  rw [overlaid]
  cases contents n with
  | none => rfl
  | some content => rw [Option.map_some, overlay, hstaged]

/-- One more write to a listed name changes what this name gives. -/
theorem Contents.overlaid_insert {contents : Contents} {n : String} (h : contents n ≠ none)
    (staged : OrderedTable String Bytes) (bytes : Bytes) :
    contents.overlaid (staged.insert n bytes)
      = Function.update (contents.overlaid staged) n (some (.ok bytes)) := by
  funext m
  have hget := OrderedTable.get?_insert staged n m bytes
  rw [Function.update_apply]
  by_cases hm : m = n
  · subst hm
    rw [if_pos rfl] at hget ⊢
    exact overlaid_of_some h hget
  · rw [if_neg hm] at hget ⊢
    cases hstaged : staged.get? m with
    | none => rw [overlaid_of_none hstaged, overlaid_of_none (hget.trans hstaged)]
    | some old =>
      -- what a name that is not listed gives does not depend on what is staged
      by_cases hnone : contents m = none
      · rw [overlaid, overlaid, hnone, Option.map_none, Option.map_none]
      · rw [overlaid_of_some hnone hstaged, overlaid_of_some hnone (hget.trans hstaged)]

/-! ## Rebuilding -/

/-- Going through entries of distinct names, each takes the write of its name. -/
theorem Handle.Rebuilds.map_content {entries : List Entry}
    (h : Rebuilds file staged entries items left) (hnodup : (entries.map Entry.name).Nodup)
    {table : OrderedTable String Bytes}
    (htable : ∀ e ∈ entries, staged.get? e.name = table.get? e.name) :
    items.map (fun item => (item.name, item.content))
      = entries.map fun e => overlay table (e.name, e.read file) := by
  induction h with
  | done => rfl
  | @replace staged left e entries items compressed bytes opens written rest ih =>
    obtain ⟨hfirst, hrest⟩ := List.nodup_cons.1 hnodup
    obtain ⟨he, hentries⟩ := List.forall_mem_cons.1 htable
    rw [written] at he
    rw [List.map_cons, List.map_cons, ih hrest, overlay, ← he, content_replacement]
    · rfl
    · -- the write that was taken is of a name that is not listed again
      intro e' he'
      have hne : e'.name ≠ e.name := fun heq => hfirst (heq ▸ List.mem_map_of_mem he')
      rw [OrderedTable.get?_erase, if_neg hne]
      exact hentries e' he'
  | @copy staged left e entries items compressed opens unwritten rest ih =>
    obtain ⟨he, hentries⟩ := List.forall_mem_cons.1 htable
    rw [unwritten] at he
    rw [List.map_cons, List.map_cons, ih (List.nodup_cons.1 hnodup).2 hentries, overlay, ← he,
      Zip.content_ofEntry opens]
    rfl

theorem Handle.map_content_rebuiltItems (h : rebuiltItems file directory staged = .ok items)
    (hnodup : (directory.entries.map Entry.name).Nodup)
    (hlisted : ∀ n bytes, staged.get? n = some bytes → n ∈ directory.entries.map Entry.name) :
    items.map (fun item => (item.name, item.content))
      = directory.entries.map fun e => overlay staged (e.name, e.read file) := by
  obtain ⟨⟨items, left⟩, hentries, hitems⟩ := bind_eq_ok_iff.1 h
  cases hitems
  obtain ⟨items, rfl, hrebuilds⟩ := rebuilds_of_rebuildEntries hentries
  have hleft : left.entries = [] := by
    refine List.eq_nil_iff_forall_not_mem.2 fun ⟨n, bytes⟩ hmem => ?_
    have hget := OrderedTable.mem_entries_iff.1 hmem
    rw [hrebuilds.get?_left] at hget
    split at hget
    case isTrue => contradiction
    case isFalse hnone => exact hnone (List.mem_map.1 (hlisted n bytes hget))
  show ([] ++ items ++ left.entries.map _).map _ = _
  rw [hleft, List.map_nil, List.append_nil, List.nil_append]
  exact hrebuilds.map_content hnodup fun _ _ => rfl

/-- An archive that was written of items lists them with their contents. -/
theorem map_read_of_presents {entries : List Entry}
    (h : List.Forall₂ (Presents file) items entries) :
    entries.map (fun e => (e.name, e.read file))
      = items.map fun item => (item.name, item.content) := by
  induction h with
  | nil => rfl
  | cons hpresents _ ih =>
    have hread := hpresents.read_eq
    obtain ⟨offset, rfl⟩ := hpresents.entry
    rw [List.map_cons, List.map_cons, ih, hread]
    rfl

/-! ## Flushing -/

variable {fs fs' : FileSystem} {location : Location} {source : Source}

/-- A flush of writes to listed names keeps the listing but for what was written. -/
theorem Archived.listing_flushed (h : Archived fs location source)
    (hlink : ∀ goal, fs.node? (Handle.besides location) ≠ some (.link goal))
    (hreopens : ∀ items, Handle.rebuiltItems (fs.data source.file).bytes source.directory staged
      = .ok items → Reopens items source.directory.comment)
    (hflush : Handle.flush fs source staged (pathOf location) = (fs', .ok ()))
    (hnodup : (source.directory.entries.map Entry.name).Nodup)
    (hlisted : ∀ n bytes, staged.get? n = some bytes →
      n ∈ source.directory.entries.map Entry.name) :
    ∃ source', Archived fs' location source'
      ∧ source'.listing fs' = (source.listing fs).map (overlay staged)
      ∧ ∀ path, Store.key fs path = .ok (pathOf location) →
        Store.key fs' path = .ok (pathOf location) := by
  obtain ⟨hplace, hnode⟩ := node?_of_inspect (isAbsolute_pathOf location) h.place
  obtain ⟨id, items, hreplaced, hitems, hbytes, hmedium⟩ :=
    Handle.replaced_of_flush h.wellFormed hplace hnode h.length_eq hlink hflush
  -- what was put into the place reopens to entries that present the items
  obtain ⟨entries, hread, hpresents⟩ := hreopens items hitems
  rw [← hbytes] at hread hpresents
  have hinspect := hreplaced.inspect h.place
  have hopen := Handle.openAt_eq_ok_iff.2
    ⟨id, _, openFile_eq_ok_some_iff.2 ⟨location, hinspect⟩, hmedium, hread, rfl⟩
  have hwellFormed : WellFormed fs' := by
    have hflushes := Handle.flushes_flush source staged h.wellFormed
      (isAbsolute_pathOf location)
    rw [hflush] at hflushes
    exact Handle.wellFormed_of_flushes h.wellFormed (isAbsolute_pathOf location) hflushes
  refine ⟨⟨id, (fs'.data id).bytes.size, ⟨entries, source.directory.comment⟩⟩,
    ⟨hwellFormed, hinspect, hopen⟩, ?_,
    fun path hkey => key_of_replaced h.wellFormed.current hplace hreplaced hkey⟩
  rw [Source.listing, Source.listing, List.map_map]
  exact (map_read_of_presents hpresents).trans
    (Handle.map_content_rebuiltItems hitems hnodup hlisted)

end Reline.Archive
