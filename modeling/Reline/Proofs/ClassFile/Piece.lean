/-
  Reline.Proofs.ClassFile.Piece

  Class files as sequences of pieces.

  To the line numbers, a class file is a sequence of pieces: plain bytes, and
  the entries of line number tables among them. The pieces give both the bytes
  of the file and the places of its lines. Two sequences are alike if they
  differ in nothing but the lines of their entries; alike sequences have the
  same places.
-/

import Reline.ClassFile.Basic
import Reline.Proofs.Bytes

namespace Reline.ClassFile

/-- A stretch of a class file. -/
inductive Piece where
  /-- Bytes that are no entry of a line number table. -/
  | plain (bytes : Bytes)
  /-- An entry of a line number table. -/
  | entry (startPc line : UInt16)

namespace Piece

/-! ## Bytes -/

/-- The bytes of a word of two bytes. -/
def word (n : UInt16) : Bytes :=
  Bytes.ofNatBE 2 n.toNat

@[simp] theorem length_word (n : UInt16) : (word n).length = 2 :=
  Bytes.length_ofNatBE 2 n.toNat

/-- A word stands where the bytes in front of it end. -/
theorem take_drop_append_word (front back : Bytes) (n : UInt16) :
    ((front ++ (word n ++ back)).drop front.length).take 2 = word n := by
  rw [List.drop_left, ← length_word n, List.take_left]

/-- The bytes of a piece. -/
def bytes : Piece → Bytes
  | plain bytes => bytes
  | entry startPc line => word startPc ++ word line

/-- The bytes of pieces, one behind the other. -/
def encode (pieces : List Piece) : Bytes :=
  pieces.flatMap bytes

@[simp] theorem encode_nil : encode [] = [] := rfl

@[simp] theorem encode_plain (bytes : Bytes) (rest : List Piece) :
    encode (plain bytes :: rest) = bytes ++ encode rest := rfl

@[simp] theorem encode_entry (startPc line : UInt16) (rest : List Piece) :
    encode (entry startPc line :: rest) = word startPc ++ word line ++ encode rest := rfl

@[simp] theorem encode_append (pieces rest : List Piece) :
    encode (pieces ++ rest) = encode pieces ++ encode rest :=
  List.flatMap_append

/-! ## Line entries -/

/-- The line entries of pieces, the first of which stands at a position. -/
def entries (position : Nat) : List Piece → List LineEntry
  | [] => []
  | plain bytes :: rest => entries (position + bytes.length) rest
  | entry startPc line :: rest =>
    { startPc, line, offset := position + 2 } :: entries (position + 4) rest

@[simp] theorem entries_nil (position : Nat) : entries position [] = [] := rfl

@[simp] theorem entries_plain (position : Nat) (bytes : Bytes) (rest : List Piece) :
    entries position (plain bytes :: rest) = entries (position + bytes.length) rest := rfl

@[simp] theorem entries_entry (position : Nat) (startPc line : UInt16) (rest : List Piece) :
    entries position (entry startPc line :: rest)
      = { startPc, line, offset := position + 2 } :: entries (position + 4) rest := rfl

/-- The line of an entry stands at its place, behind its instruction offset. -/
theorem exists_encode_of_mem_entries {pieces : List Piece} {position : Nat} {e : LineEntry}
    (he : e ∈ entries position pieces) :
    ∃ front back, encode pieces = front ++ word e.startPc ++ word e.line ++ back
      ∧ e.offset = position + front.length + 2 := by
  induction pieces generalizing position with
  | nil => contradiction
  | cons piece pieces ih =>
    cases piece with
    | plain bytes =>
      obtain ⟨front, back, hspell, hoffset⟩ := ih he
      refine ⟨bytes ++ front, back, ?_, ?_⟩
      · rw [encode_plain, hspell]
        simp only [List.append_assoc]
      · rw [hoffset, List.length_append, Nat.add_assoc position]
    | entry startPc line =>
      rw [entries_entry, List.mem_cons] at he
      rcases he with rfl | he
      · exact ⟨[], encode pieces, rfl, rfl⟩
      · obtain ⟨front, back, hspell, hoffset⟩ := ih he
        refine ⟨word startPc ++ word line ++ front, back, ?_, ?_⟩
        · rw [encode_entry, hspell]
          simp only [List.append_assoc]
        · simp only [hoffset, List.length_append, length_word]
          omega

/-- Pieces further back have their entries behind those of the pieces in front of them. -/
theorem entries_append (position : Nat) (pieces rest : List Piece) :
    entries position (pieces ++ rest)
      = entries position pieces ++ entries (position + (encode pieces).length) rest := by
  induction pieces generalizing position with
  | nil => rfl
  | cons piece pieces ih =>
    cases piece with
    | plain bytes =>
      rw [List.cons_append, entries_plain, ih, entries_plain, encode_plain, List.length_append,
        Nat.add_assoc]
    | entry startPc line =>
      have hlen : (encode (entry startPc line :: pieces)).length = 4 + (encode pieces).length := by
        simp only [encode_entry, List.length_append, length_word]
      rw [List.cons_append, entries_entry, ih, entries_entry, hlen, List.cons_append,
        Nat.add_assoc]

/-! ## Alike pieces -/

/-- Whether two pieces differ at most in a line. -/
inductive Alike : Piece → Piece → Prop where
  | plain (bytes : Bytes) : Alike (.plain bytes) (.plain bytes)
  | entry (startPc line line' : UInt16) : Alike (.entry startPc line) (.entry startPc line')

theorem Alike.length_bytes {piece piece' : Piece} (h : Alike piece piece') :
    piece'.bytes.length = piece.bytes.length := by
  cases h with
  | plain bytes => rfl
  | entry startPc line line' => simp only [bytes, List.length_append, length_word]

/-- Alike pieces take equally many bytes. -/
theorem length_encode_of_alike {pieces pieces' : List Piece}
    (h : List.Forall₂ Alike pieces pieces') :
    (encode pieces').length = (encode pieces).length := by
  induction h with
  | nil => rfl
  | cons hpiece _ ih =>
    have hlen := hpiece.length_bytes
    simp only [encode, List.flatMap_cons, List.length_append] at ih ⊢
    rw [hlen, ih]

/-- Alike pieces have entries at the same places, with the same instruction offsets. -/
theorem entries_of_alike {pieces pieces' : List Piece} (h : List.Forall₂ Alike pieces pieces')
    (position : Nat) :
    List.Forall₂ (fun e e' => e'.startPc = e.startPc ∧ e'.offset = e.offset)
      (entries position pieces) (entries position pieces') := by
  induction h generalizing position with
  | nil => exact .nil
  | cons hpiece _ ih =>
    cases hpiece with
    | plain bytes => exact ih _
    | entry startPc line line' => exact .cons ⟨rfl, rfl⟩ (ih _)

/-- Any lines can be given to the entries of pieces. -/
theorem exists_alike_of_lines (pieces : List Piece) (position : Nat) {lines : List UInt16}
    (h : lines.length = (entries position pieces).length) :
    ∃ pieces', List.Forall₂ Alike pieces pieces'
      ∧ (entries position pieces').map LineEntry.line = lines := by
  induction pieces generalizing position lines with
  | nil => exact ⟨[], .nil, (List.length_eq_zero_iff.1 h).symm⟩
  | cons piece pieces ih =>
    cases piece with
    | plain bytes =>
      obtain ⟨pieces', halike, hlines⟩ := ih _ h
      exact ⟨.plain bytes :: pieces', .cons (.plain bytes) halike, hlines⟩
    | entry startPc line =>
      rw [entries_entry, List.length_cons] at h
      -- each entry takes the first of the lines that are left
      obtain ⟨line', lines, rfl⟩ := List.exists_cons_of_length_eq_add_one h
      obtain ⟨pieces', halike, hlines⟩ := ih (position + 4) (Nat.succ.inj h)
      refine ⟨.entry startPc line' :: pieces', .cons (.entry startPc line line') halike, ?_⟩
      rw [entries_entry, List.map_cons, hlines]

/-- Alike pieces have equal bytes outside of the lines in which they differ. -/
theorem getElem?_encode_of_alike {pieces pieces' : List Piece}
    (h : List.Forall₂ Alike pieces pieces') (position i : Nat)
    (hi : ∀ pair ∈ (entries position pieces).zip (entries position pieces'),
      pair.1.line ≠ pair.2.line → position + i ≠ pair.1.offset ∧ position + i ≠ pair.1.offset + 1) :
    (encode pieces')[i]? = (encode pieces)[i]? := by
  induction h generalizing position i with
  | nil => rfl
  | cons hpiece _ ih =>
    cases hpiece with
    | plain bytes =>
      rw [encode_plain, encode_plain]
      -- the byte is one of these, or stands in the pieces behind them
      by_cases hfront : i < bytes.length
      · rw [List.getElem?_append_left hfront, List.getElem?_append_left hfront]
      · have hge := Nat.not_lt.1 hfront
        rw [List.getElem?_append_right hge, List.getElem?_append_right hge]
        apply ih (position + bytes.length)
        intro pair hpair hline
        have := hi pair hpair hline
        omega
    | entry startPc line line' =>
      have hhead := hi _ (List.mem_cons_self ..)
      have htail : ∀ pair ∈ _, _ := fun pair hpair => hi pair (List.mem_cons_of_mem _ hpair)
      rw [encode_entry, encode_entry, List.append_assoc, List.append_assoc]
      -- the byte is one of the instruction offset, one of the line, or stands behind both
      by_cases hstart : i < (word startPc).length
      · rw [List.getElem?_append_left hstart, List.getElem?_append_left hstart]
      · have hstart := Nat.not_lt.1 hstart
        rw [List.getElem?_append_right hstart, List.getElem?_append_right hstart]
        have hlen : (word line').length = (word line).length := by rw [length_word, length_word]
        rw [length_word] at hstart ⊢
        by_cases hline : i - 2 < (word line).length
        · -- a byte that stays is not one of a line that was changed
          have hsame : line = line' := by
            by_contra hne
            have hoff := hhead hne
            rw [length_word] at hline
            simp only at hoff
            omega
          rw [hsame, List.getElem?_append_left (hsame ▸ hline),
            List.getElem?_append_left (hsame ▸ hline)]
        · have hline := Nat.not_lt.1 hline
          rw [List.getElem?_append_right (hlen ▸ hline), List.getElem?_append_right hline, hlen]
          rw [length_word] at hline ⊢
          apply ih (position + 4)
          intro pair hpair hne
          have := htail pair hpair hne
          omega

end Piece

end Reline.ClassFile
