/-
  Reline.Proofs.Zip.Contents

  What entries are found by their names, and what they contain.

  Of several entries of one name the last is found. An item contains what an
  entry gives that was written of it; the items of an archive reopen if its
  directory lists them in order and gives for each the data that it was written
  with. Data that was written is what such an entry gives.
-/

import Mathlib
import Reline.Proofs.Except
import Reline.Proofs.Zip.Deflate
import Reline.Zip.Encode

namespace Reline

/-- The last element of a list with a property: the first one counts if no later one has it. -/
theorem find?_reverse_cons {α : Type} (p : α → Bool) (a : α) (list : List α) :
    (a :: list).reverse.find? p = (list.reverse.find? p).or (if p a then some a else none) := by
  rw [List.reverse_cons, List.find?_append]
  congr 1
  by_cases ha : p a
  · rw [if_pos ha, List.find?_cons_of_pos ha]
  · rw [if_neg ha, List.find?_cons_of_neg ha, List.find?_nil]

namespace Zip

/-! ## The last of a name -/

section LastContent

variable {α β : Type} {name : α → String} {content : α → Except Error Bytes}
  {name' : β → String} {content' : β → Except Error Bytes}

/-- The content of the last element of a list that has a name. -/
def lastContent (name : α → String) (content : α → Except Error Bytes) (list : List α)
    (n : String) : Option (Except Error Bytes) :=
  (list.reverse.find? fun a => name a = n).map content

/-- The first element of a list counts if no later one has its name. -/
theorem lastContent_cons (a : α) (list : List α) (n : String) :
    lastContent name content (a :: list) n
      = (lastContent name content list n).or (if name a = n then some (content a) else none) := by
  rw [lastContent, find?_reverse_cons, Option.map_or]
  congr 1
  by_cases hn : name a = n
  · rw [if_pos hn, if_pos (decide_eq_true hn), Option.map_some]
  · rw [if_neg hn, if_neg (by simpa using hn), Option.map_none]

theorem lastContent_append (list rest : List α) (n : String) :
    lastContent name content (list ++ rest) n
      = (lastContent name content rest n).or (lastContent name content list n) := by
  rw [lastContent, List.reverse_append, List.find?_append, Option.map_or]
  rfl

/-- Lists with equal names and contents are searched alike. -/
theorem lastContent_eq_of_forall₂ {list : List α} {list' : List β}
    (h : List.Forall₂ (fun a b => name' b = name a ∧ content' b = content a) list list')
    (n : String) : lastContent name' content' list' n = lastContent name content list n := by
  induction h with
  | nil => rfl
  | cons hab _ ih => rw [lastContent_cons, lastContent_cons, ih, hab.1, hab.2]

theorem lastContent_eq_none {list : List α} {n : String} (h : ∀ a ∈ list, name a ≠ n) :
    lastContent name content list n = none := by
  rw [lastContent, List.find?_eq_none.2]
  · rfl
  · intro a ha
    simpa using h a (List.mem_reverse.1 ha)

theorem exists_lastContent {list : List α} {a : α} (ha : a ∈ list) :
    ∃ c, lastContent name content list (name a) = some c := by
  have hfind : (list.reverse.find? fun b => name b = name a).isSome := by
    rw [List.find?_isSome]
    exact ⟨a, List.mem_reverse.2 ha, decide_eq_true rfl⟩
  obtain ⟨b, hb⟩ := Option.isSome_iff_exists.1 hfind
  exact ⟨content b, by rw [lastContent, hb]; rfl⟩

theorem exists_mem_of_lastContent {list : List α} {n : String} {c : Except Error Bytes}
    (h : lastContent name content list n = some c) : ∃ a ∈ list, name a = n ∧ content a = c := by
  obtain ⟨a, ha, hc⟩ := Option.map_eq_some_iff.1 h
  exact ⟨a, List.mem_reverse.1 (List.mem_of_find?_eq_some ha),
    by simpa using List.find?_some ha, hc⟩

end LastContent

/-- What is read of the entry that is found by a name. -/
theorem map_read_find? (directory : Directory) (file : Buffer) (n : String) :
    (directory.find? n).map (Entry.read · file)
      = lastContent Entry.name (Entry.read · file) directory.entries n := rfl

/-! ## Items -/

namespace Item

/-- What the directory says of an item whose record stands at an offset. -/
def entry (item : Item) (offset : Nat) : Entry :=
  { name := item.name, method := item.method, encrypted := false, date := item.date,
    time := item.time, crc := item.crc, compressedSize := item.compressedSize, size := item.size,
    system := 3, attributes := item.mode <<< 16, recordOffset := offset }

/-- What an entry gives that was written of an item. -/
def content (item : Item) : Except Error Bytes :=
  match item.method with
  | .other _ => .error .unknownMethod
  | .stored | .deflated => ((item.entry 0).decode item.compressed).mapError .io

end Item

/-- Whether an entry of a file is one that was written of an item. -/
structure Presents (file : Buffer) (item : Item) (e : Entry) : Prop where
  entry : ∃ offset, e = item.entry offset
  compressed : e.compressed file = .ok item.compressed

theorem Presents.read_eq {file : Buffer} {item : Item} {e : Entry} (h : Presents file item e) :
    e.read file = item.content := by
  obtain ⟨offset, rfl⟩ := h.entry
  rw [Entry.read, Entry.openIn, h.compressed, Item.content]
  cases hmethod : item.method <;> simp only [Item.entry, hmethod] <;> rfl

/-- Whether the archive that is written of items lists them in order, each with its data. -/
def Reopens (items : List Item) (comment : Bytes) : Prop :=
  ∃ entries, Directory.read (encode items comment).toArray = .ok ⟨entries, comment⟩
    ∧ List.Forall₂ (Presents (encode items comment).toArray) items entries

/-- What is found in an archive that was written is what its items contain. -/
theorem lastContent_of_presents {file : Buffer} {items : List Item} {entries : List Entry}
    (h : List.Forall₂ (Presents file) items entries) (n : String) :
    lastContent Entry.name (Entry.read · file) entries n
      = lastContent Item.name Item.content items n := by
  apply lastContent_eq_of_forall₂
  -- entry by entry, the names are equal and so is what is read
  refine h.imp fun item e hpresents => ⟨?_, hpresents.read_eq⟩
  obtain ⟨offset, rfl⟩ := hpresents.entry
  rfl

/-! ## Contents of items -/

/-- Data with the right checksum is given. -/
theorem Entry.decode_eq_ok {e : Entry} {compressed data : Bytes}
    (hdata : e.method = .deflated ∧ inflate compressed = .ok data
      ∨ e.method = .stored ∧ compressed = data)
    (hcrc : (crc32 data).toNat = e.crc) : e.decode compressed = .ok data := by
  rw [decode]
  rcases hdata with ⟨hmethod, hinflate⟩ | ⟨hmethod, rfl⟩
  · rw [hmethod, hinflate]
    exact if_pos hcrc
  · rw [hmethod]
    exact if_pos hcrc

/-- Data that was written, stored or compressed, is read again. -/
theorem content_ofData (name : String) {method : Method}
    (hmethod : method = .stored ∨ method = .deflated) (date time mode : Nat) (data : Bytes) :
    (Item.ofData name method date time mode data).content = .ok data := by
  rcases hmethod with rfl | rfl
  · apply mapError_eq_ok_iff.2
    exact Entry.decode_eq_ok (.inr ⟨rfl, rfl⟩) rfl
  · apply mapError_eq_ok_iff.2
    exact Entry.decode_eq_ok (.inl ⟨rfl, inflate_deflate data⟩) rfl

@[simp] theorem content_new (name : String) (data : Bytes) :
    (Item.new name data).content = .ok data :=
  content_ofData name (.inr rfl) ..

/-- An entry that can be opened gives its data, and its method is known. -/
theorem Entry.openIn_eq_ok_iff {e : Entry} {file : Buffer} {compressed : Bytes} :
    e.openIn file = .ok compressed
      ↔ e.encrypted = false ∧ e.compressed file = .ok compressed
        ∧ (e.method = .stored ∨ e.method = .deflated) := by
  rw [openIn]
  cases hencrypted : e.encrypted with
  | true => simp [bind, Except.bind, throw, throwThe, MonadExceptOf.throw]
  | false =>
    cases hcompressed : e.compressed file with
    | error fault => simp [bind, Except.bind]
    | ok data =>
      cases hmethod : e.method <;>
        simp [bind, Except.bind, throw, throwThe, MonadExceptOf.throw, pure, Except.pure]

/-- A copy of an entry contains what the entry gives. -/
theorem content_ofEntry {e : Entry} {file : Buffer} {compressed : Bytes}
    (h : e.openIn file = .ok compressed) :
    (Item.ofEntry e compressed).content = e.read file := by
  obtain ⟨-, -, hmethod⟩ := Entry.openIn_eq_ok_iff.1 h
  rw [Entry.read, h]
  show (match e.method with
    | .other _ => .error .unknownMethod
    | .stored | .deflated => (e.decode compressed).mapError Error.io)
    = (e.decode compressed).mapError Error.io
  rcases hmethod with hmethod | hmethod <;> rw [hmethod]

end Zip

end Reline
