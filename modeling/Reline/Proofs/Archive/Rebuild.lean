/-
  Reline.Proofs.Archive.Rebuild

  What an archive contains after it was built anew with staged writes.

  Rebuilding goes through the entries in order and gives each staged write to
  the first entry of its name. Reading finds the last entry of a name. So a
  write is seen exactly if its name was listed at most once; a name that was
  listed more often is read as before, and so is every name that was not
  written.
-/

import Reline.Archive.Handle
import Reline.Proofs.OrderedTable
import Reline.Proofs.Zip.Contents

namespace Reline.Archive.Handle

open Zip (Entry Item lastContent)

variable {file : Buffer} {staged left : OrderedTable String Bytes}

/-! ## Going through the entries -/

/-- The items that entries become while writes are staged, and the writes that are left. -/
inductive Rebuilds (file : Buffer) :
    OrderedTable String Bytes → List Entry → List Item → OrderedTable String Bytes → Prop where
  /-- No entry is left. -/
  | done {staged : OrderedTable String Bytes} : Rebuilds file staged [] [] staged
  /-- A staged write takes the place of an entry. -/
  | replace {staged left : OrderedTable String Bytes} {e : Entry} {entries : List Entry}
    {items : List Item} {compressed bytes : Bytes} (opens : e.openIn file = .ok compressed)
    (written : staged.get? e.name = some bytes)
    (rest : Rebuilds file (staged.erase e.name) entries items left) :
    Rebuilds file staged (e :: entries) (replacement e bytes :: items) left
  /-- An entry that was not written is copied. -/
  | copy {staged left : OrderedTable String Bytes} {e : Entry} {entries : List Entry}
    {items : List Item} {compressed : Bytes} (opens : e.openIn file = .ok compressed)
    (unwritten : staged.get? e.name = none) (rest : Rebuilds file staged entries items left) :
    Rebuilds file staged (e :: entries) (.ofEntry e compressed :: items) left

theorem rebuilds_of_rebuildEntries {done items : List Item} {entries : List Entry}
    (h : rebuildEntries file staged done entries = .ok (items, left)) :
    ∃ items', items = done.reverse ++ items' ∧ Rebuilds file staged entries items' left := by
  induction entries generalizing staged done with
  | nil =>
    rw [rebuildEntries] at h
    cases h
    exact ⟨[], (List.append_nil _).symm, .done⟩
  | cons e entries ih =>
    rw [rebuildEntries] at h
    obtain ⟨compressed, hopens, h⟩ := bind_eq_ok_iff.1 h
    split at h
    case h_1 bytes hwritten =>
      obtain ⟨items', rfl, hrest⟩ := ih h
      refine ⟨_, ?_, .replace hopens hwritten hrest⟩
      rw [List.reverse_cons, List.append_assoc, List.singleton_append]
    case h_2 hunwritten =>
      obtain ⟨items', rfl, hrest⟩ := ih h
      refine ⟨_, ?_, .copy hopens hunwritten hrest⟩
      rw [List.reverse_cons, List.append_assoc, List.singleton_append]

/-- The writes that are left are those of names that are not listed. -/
theorem Rebuilds.get?_left {entries : List Entry} {items : List Item}
    (h : Rebuilds file staged entries items left) (n : String) :
    left.get? n = if ∃ e ∈ entries, e.name = n then none else staged.get? n := by
  induction h with
  | done => simp
  | @replace _ _ e entries _ _ _ opens written rest ih =>
    rw [ih, OrderedTable.get?_erase]
    by_cases hn : e.name = n
    -- this entry takes the write of its name, so that none is left
    · have hne : ∃ e' ∈ e :: entries, e'.name = n := ⟨e, List.mem_cons_self .., hn⟩
      rw [if_pos hn.symm, if_pos hne, ite_self]
    · simp only [List.exists_mem_cons_iff, hn, false_or, Ne.symm hn, if_false]
  | @copy staged _ e entries _ _ opens unwritten rest ih =>
    rw [ih]
    by_cases hn : e.name = n
    · have hne : ∃ e' ∈ e :: entries, e'.name = n := ⟨e, List.mem_cons_self .., hn⟩
      rw [if_pos hne, ← hn, unwritten, ite_self]
    · simp only [List.exists_mem_cons_iff, hn, false_or]

/-- How often entries list a name. -/
def listed (entries : List Entry) (n : String) : Nat :=
  entries.countP fun e => e.name = n

theorem listed_cons_of_eq {e : Entry} {n : String} (h : e.name = n) (entries : List Entry) :
    listed (e :: entries) n = listed entries n + 1 :=
  List.countP_cons_of_pos (decide_eq_true h)

theorem listed_cons_of_ne {e : Entry} {n : String} (h : e.name ≠ n) (entries : List Entry) :
    listed (e :: entries) n = listed entries n :=
  List.countP_cons_of_neg (by simpa using h)

theorem lastContent_of_listed_eq_zero {entries : List Entry} {n : String}
    (h : listed entries n = 0) : lastContent Entry.name (Entry.read · file) entries n = none := by
  apply Zip.lastContent_eq_none
  intro e he
  simpa using List.countP_eq_zero.1 h e he

theorem exists_lastContent_of_listed_ne_zero (file : Buffer) {entries : List Entry} {n : String}
    (h : listed entries n ≠ 0) :
    ∃ c, lastContent Entry.name (Entry.read · file) entries n = some c := by
  obtain ⟨e, he, hn⟩ := List.countP_pos_iff.1 (Nat.pos_of_ne_zero h)
  exact of_decide_eq_true hn ▸ Zip.exists_lastContent he

theorem content_replacement (e : Entry) (bytes : Bytes) :
    (replacement e bytes).content = .ok bytes := by
  apply Zip.content_ofData
  cases e.method with
  | stored => exact .inl rfl
  | deflated => exact .inr rfl
  | other code => exact .inr rfl

/-- In the place of the entries, a write is found if its name is listed once. -/
theorem Rebuilds.lastContent_eq {entries : List Entry} {items : List Item}
    (h : Rebuilds file staged entries items left) (n : String) :
    lastContent Item.name Item.content items n
      = match staged.get? n with
        | none => lastContent Entry.name (Entry.read · file) entries n
        | some bytes =>
          if listed entries n = 1 then some (.ok bytes)
          else lastContent Entry.name (Entry.read · file) entries n := by
  induction h with
  | @done staged =>
    cases staged.get? n <;> rfl
  | @replace staged _ e entries items _ bytes opens written rest ih =>
    have hname : (replacement e bytes).name = e.name := rfl
    rw [OrderedTable.get?_erase] at ih
    rw [Zip.lastContent_cons, Zip.lastContent_cons, hname, content_replacement]
    by_cases hn : e.name = n
    · subst hn
      rw [if_pos rfl] at ih
      rw [ih, written, if_pos rfl, if_pos rfl, listed_cons_of_eq rfl]
      dsimp only
      by_cases hlater : listed entries e.name = 0
      · rw [hlater, if_pos rfl, lastContent_of_listed_eq_zero hlater, Option.none_or]
      · -- a later entry of the name is copied, and it is the one that is found
        obtain ⟨c, hc⟩ := exists_lastContent_of_listed_ne_zero file hlater
        rw [if_neg (by omega), hc, Option.some_or, Option.some_or]
    · rw [if_neg (Ne.symm hn)] at ih
      rw [ih, if_neg hn, if_neg hn, Option.or_none, Option.or_none, listed_cons_of_ne hn]
  | @copy staged _ e entries items compressed opens unwritten rest ih =>
    have hname : (Item.ofEntry e compressed).name = e.name := rfl
    rw [Zip.lastContent_cons, Zip.lastContent_cons, hname, Zip.content_ofEntry opens, ih]
    by_cases hn : e.name = n
    · subst hn
      rw [unwritten]
    · rw [if_neg hn, Option.or_none, Option.or_none, listed_cons_of_ne hn]

/-! ## The whole archive -/

/-- The items of the archive with the staged writes. -/
def rebuiltItems (file : Buffer) (directory : Zip.Directory) (staged : OrderedTable String Bytes) :
    Except Zip.Error (List Item) := do
  let (items, left) ← rebuildEntries file staged [] directory.entries
  return items ++ left.entries.map fun (name, bytes) => Item.new name bytes

theorem rebuilt_eq_ok_iff {directory : Zip.Directory} {bytes : Bytes} :
    rebuilt file directory staged = .ok bytes
      ↔ ∃ items, rebuiltItems file directory staged = .ok items
        ∧ Zip.encode items directory.comment = bytes := by
  rw [rebuilt, rebuiltItems]
  cases rebuildEntries file staged [] directory.entries with
  | error e => simp [bind, Except.bind]
  | ok pair => simp [bind, Except.bind, pure, Except.pure]

/-- Of the new items, the one of a name contains the write of that name. -/
theorem lastContent_new (left : OrderedTable String Bytes) (n : String) :
    lastContent Item.name Item.content (left.entries.map fun (name, bytes) => Item.new name bytes) n
      = (left.get? n).map .ok := by
  cases hleft : left.get? n with
  | none =>
    apply Zip.lastContent_eq_none
    intro item hitem hname
    obtain ⟨⟨name, bytes⟩, hpair, rfl⟩ := List.mem_map.1 hitem
    have hsome := OrderedTable.mem_entries_iff.1 hpair
    have hname : name = n := hname
    rw [hname, hleft] at hsome
    contradiction
  | some bytes =>
    have hmem : Item.new n bytes
        ∈ left.entries.map fun (name, bytes) => Item.new name bytes :=
      List.mem_map.2 ⟨(n, bytes), OrderedTable.mem_entries_iff.2 hleft, rfl⟩
    obtain ⟨c, hc⟩ : ∃ c, lastContent Item.name Item.content
        (left.entries.map fun (name, bytes) => Item.new name bytes) n = some c :=
      Zip.exists_lastContent hmem
    obtain ⟨item, hitem, hname, rfl⟩ := Zip.exists_mem_of_lastContent hc
    obtain ⟨⟨name, bytes'⟩, hpair, rfl⟩ := List.mem_map.1 hitem
    have hname : name = n := hname
    -- the table has one pair of the name, so any item of the name is made of it
    have hsame := OrderedTable.mem_entries_iff.1 hpair
    rw [hname, hleft] at hsame
    cases hsame
    exact hc.trans (congrArg some (Zip.content_new name bytes))

/-- In an archive with staged writes, a write is found unless its name was listed more than once
before. All other names are found as before. -/
theorem lastContent_rebuiltItems {directory : Zip.Directory} {items : List Item}
    (h : rebuiltItems file directory staged = .ok items) (n : String) :
    lastContent Item.name Item.content items n
      = match staged.get? n with
        | none => lastContent Entry.name (Entry.read · file) directory.entries n
        | some bytes =>
          if listed directory.entries n ≤ 1 then some (.ok bytes)
          else lastContent Entry.name (Entry.read · file) directory.entries n := by
  obtain ⟨⟨items, left⟩, hentries, hitems⟩ := bind_eq_ok_iff.1 h
  cases hitems
  obtain ⟨items, rfl, hrebuilds⟩ := rebuilds_of_rebuildEntries hentries
  have hleft := hrebuilds.get?_left n
  have hplaces := hrebuilds.lastContent_eq n
  show lastContent Item.name Item.content (items ++ _) n = _
  -- new items come last, so they are found first
  rw [Zip.lastContent_append, lastContent_new]
  cases hstaged : staged.get? n with
  | none =>
    rw [hstaged, ite_self] at hleft
    rw [hstaged] at hplaces
    rw [hleft, hplaces]
    rfl
  | some bytes =>
    rw [hstaged] at hleft hplaces
    dsimp only at hplaces ⊢
    by_cases hlisted : listed directory.entries n = 0
    · -- no entry has the name, so the write is left and becomes a new entry
      have hnone : ¬ ∃ e ∈ directory.entries, e.name = n := by
        rintro ⟨e, he, hname⟩
        exact List.countP_eq_zero.1 hlisted e he (decide_eq_true hname)
      rw [if_neg hnone] at hleft
      rw [hleft, hlisted, if_pos (Nat.zero_le 1)]
      rfl
    · have hsome : ∃ e ∈ directory.entries, e.name = n := by
        obtain ⟨e, he, hname⟩ := List.countP_pos_iff.1 (Nat.pos_of_ne_zero hlisted)
        exact ⟨e, he, of_decide_eq_true hname⟩
      have honce : listed directory.entries n = 1 ↔ listed directory.entries n ≤ 1 := by omega
      rw [if_pos hsome] at hleft
      rw [hleft, hplaces]
      simp only [honce, Option.map_none, Option.none_or]

end Reline.Archive.Handle
