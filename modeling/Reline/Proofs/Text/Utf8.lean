/-
  Reline.Proofs.Text.Utf8

  Texts and their bytes: the order of texts is that of their bytes, and text is
  read back from its bytes.

  Texts are compared character by character, and each character has its own
  bytes. Of two characters the lesser one has the lesser bytes, and none has the
  first bytes of another: a longer form begins with a greater byte. The lead
  byte of a form says how many bytes it has, so that the characters are read one
  by one. The characters of ASCII are read alike in the old character set.

  Main statements: `encode_lt_encode`, `decode?_eq_some_iff`,
  `decodeReplacing_encode`.
-/

import Reline.Text.Codepage437
import Reline.Text.Utf8

namespace Reline.Text.Utf8

/-- The bytes of a scalar value, as numbers, in the four forms that they have. -/
inductive Spells : Nat → List Nat → Prop where
  /-- The value itself. -/
  | one {v : Nat} (high : v < 0x80) : Spells v [v]
  /-- Five bits and six. -/
  | two {v : Nat} (low : 0x80 ≤ v) (high : v < 0x800) : Spells v [v / 64 + 192, v % 64 + 128]
  /-- Four bits and six, twice. -/
  | three {v : Nat} (low : 0x800 ≤ v) (high : v < 0x10000) :
    Spells v [v / 4096 + 224, v / 64 % 64 + 128, v % 64 + 128]
  /-- Three bits and six, three times. -/
  | four {v : Nat} (low : 0x10000 ≤ v) (high : v < 0x110000) :
    Spells v [v / 262144 + 240, v / 4096 % 64 + 128, v / 64 % 64 + 128, v % 64 + 128]

theorem toNat_lt (c : Char) : c.val.toNat < 0x110000 := by
  rcases c.valid with h | h
  · exact Nat.lt_trans h (by decide)
  · exact h.2

theorem spells_utf8EncodeChar (c : Char) :
    Spells c.val.toNat ((String.utf8EncodeChar c).map UInt8.toNat) := by
  have hbound := toNat_lt c
  have hcases : String.utf8EncodeChar c = if c.val.toNat ≤ 0x7f then _ else _ := rfl
  rw [hcases]
  generalize c.val.toNat = v at hbound
  -- the bytes are bytes, since no part of the value is too large for its place
  split
  case isTrue h =>
    simp (disch := omega) only [List.map_cons, List.map_nil, UInt8.toNat_ofNat', Nat.mod_eq_of_lt]
    exact .one (by omega)
  case isFalse h =>
    split
    case isTrue h' =>
      simp (disch := omega) only [List.map_cons, List.map_nil, UInt8.toNat_ofNat',
        Nat.mod_eq_of_lt]
      exact .two (by omega) (by omega)
    case isFalse h' =>
      split
      case isTrue h'' =>
        simp (disch := omega) only [List.map_cons, List.map_nil, UInt8.toNat_ofNat',
          Nat.mod_eq_of_lt]
        exact .three (by omega) (by omega)
      case isFalse h'' =>
        simp (disch := omega) only [List.map_cons, List.map_nil, UInt8.toNat_ofNat',
          Nat.mod_eq_of_lt]
        exact .four (by omega) hbound

theorem utf8EncodeChar_ne_nil (c : Char) : String.utf8EncodeChar c ≠ [] := by
  intro hnil
  have hspells := spells_utf8EncodeChar c
  rw [hnil] at hspells
  cases hspells

/-! ## Order -/

/-- The bytes of a lesser value are less, whatever follows. -/
theorem Spells.append_lt_append {v w : Nat} {bytes bytes' : List Nat} (h : Spells v bytes)
    (h' : Spells w bytes') (hlt : v < w) (rest rest' : List Nat) :
    bytes ++ rest < bytes' ++ rest' := by
  cases h <;> cases h' <;>
    simp only [List.cons_append, List.nil_append, List.cons_lt_cons_iff] <;> omega

theorem lt_of_map_toNat_lt {bytes bytes' : Bytes}
    (h : bytes.map UInt8.toNat < bytes'.map UInt8.toNat) : bytes < bytes' := by
  induction bytes generalizing bytes' with
  | nil =>
    cases bytes' with
    | nil => exact absurd h (List.lt_irrefl _)
    | cons b' rest' => exact List.nil_lt_cons ..
  | cons b rest ih =>
    cases bytes' with
    | nil => exact absurd h (List.not_lt_nil _)
    | cons b' rest' =>
      rw [List.map_cons, List.map_cons, List.cons_lt_cons_iff] at h
      rw [List.cons_lt_cons_iff]
      rcases h with hlt | ⟨heq, hrest⟩
      · exact .inl (UInt8.lt_iff_toNat_lt.2 hlt)
      · exact .inr ⟨UInt8.toNat_inj.1 heq, ih hrest⟩

/-- The bytes of a text are those of its characters. -/
theorem encode_eq_flatMap (text : String) :
    encode text = text.toList.flatMap String.utf8EncodeChar := by
  have hbytes := String.toByteArray_ofList (l := text.toList)
  rw [String.ofList_toList] at hbytes
  rw [encode, String.toUTF8, hbytes, List.utf8Encode, List.data_toByteArray, List.toList_toArray]

theorem flatMap_lt_flatMap {chars chars' : List Char} (h : chars < chars') :
    chars.flatMap String.utf8EncodeChar < chars'.flatMap String.utf8EncodeChar := by
  induction chars generalizing chars' with
  | nil =>
    cases chars' with
    | nil => exact absurd h (List.lt_irrefl _)
    | cons c' rest' =>
      rw [List.flatMap_cons, List.flatMap_nil]
      obtain ⟨b, bytes, hbytes⟩ := List.exists_cons_of_ne_nil (utf8EncodeChar_ne_nil c')
      rw [hbytes, List.cons_append]
      exact List.nil_lt_cons ..
  | cons c rest ih =>
    cases chars' with
    | nil => exact absurd h (List.not_lt_nil _)
    | cons c' rest' =>
      rw [List.flatMap_cons, List.flatMap_cons]
      rcases List.cons_lt_cons_iff.1 h with hlt | ⟨rfl, hrest⟩
      · apply lt_of_map_toNat_lt
        rw [List.map_append, List.map_append]
        exact (spells_utf8EncodeChar c).append_lt_append (spells_utf8EncodeChar c') hlt _ _
      · exact List.append_left_lt (ih hrest)

/-- Of two texts the lesser one has the lesser bytes. -/
theorem encode_lt_encode {text text' : String} (h : text < text') : encode text < encode text' := by
  rw [encode_eq_flatMap, encode_eq_flatMap]
  exact flatMap_lt_flatMap (String.lt_iff.1 h)

/-! ## Decoding -/

theorem sequenceWidth_eq (lead : UInt8) :
    sequenceWidth lead
      = if lead.toNat < 0x80 then 1 else if lead.toNat < 0xC2 then 0
        else if lead.toNat < 0xE0 then 2 else if lead.toNat < 0xF0 then 3
        else if lead.toNat < 0xF5 then 4 else 0 := by
  simp only [sequenceWidth, UInt8.lt_iff_toNat_lt]
  rfl

/-- A byte that carries six bits of a value continues a sequence. -/
theorem isContinuation_of_toNat {b : UInt8} {n : Nat} (h : b.toNat = n % 64 + 128) :
    isContinuation b = true ∧ payload b = n % 64 := by
  simp only [isContinuation, payload, UInt8.le_iff_toNat_le, h, UInt8.reduceToNat,
    Bool.and_eq_true, decide_eq_true_eq]
  omega

/-- A second byte may follow its lead byte if it makes neither a longer form nor a surrogate, nor
too great a value. -/
theorem le_and_le_secondRange {lead b : UInt8} (hlong : lead.toNat = 0xE0 → 0xA0 ≤ b.toNat)
    (hsurrogate : lead.toNat = 0xED → b.toNat ≤ 0x9F) (hlong' : lead.toNat = 0xF0 → 0x90 ≤ b.toNat)
    (hgreat : lead.toNat = 0xF4 → b.toNat ≤ 0x8F) (low : 0x80 ≤ b.toNat) (high : b.toNat ≤ 0xBF) :
    ((secondRange lead).1 ≤ b && b ≤ (secondRange lead).2) = true := by
  simp only [secondRange, ← UInt8.toNat_inj, UInt8.reduceToNat]
  repeat' split
  all_goals
    simp only [Bool.and_eq_true, decide_eq_true_eq, UInt8.le_iff_toNat_le, UInt8.reduceToNat]
    omega

section Widths

/-! What is read as a character behind a lead byte, for each width that the lead byte can ask for.
-/

variable {lead : UInt8} {rest : Bytes} {c : Char} {width : Nat}

theorem next_eq_scalar_iff_one (h : sequenceWidth lead = 1) :
    next lead rest = .scalar c width ↔ c = Char.ofNat lead.toNat ∧ width = 1 := by
  simp only [next, h]
  constructor
  · intro hnext
    cases hnext
    exact ⟨rfl, rfl⟩
  · rintro ⟨rfl, rfl⟩
    rfl

theorem next_eq_scalar_iff_two (h : sequenceWidth lead = 2) :
    next lead rest = .scalar c width
      ↔ ∃ b more, rest = b :: more ∧ isContinuation b = true
        ∧ c = Char.ofNat (lead.toNat % 32 * 64 + payload b) ∧ width = 2 := by
  simp only [next, h]
  constructor
  · intro hnext
    split at hnext
    case h_1 b more =>
      split at hnext
      case isTrue hcontinues =>
        cases hnext
        exact ⟨b, more, rfl, hcontinues, rfl, rfl⟩
      case isFalse => cases hnext
    case h_2 => cases hnext
  · rintro ⟨b, more, rfl, hcontinues, rfl, rfl⟩
    simp only [if_pos hcontinues]

theorem next_eq_scalar_iff_three (h : sequenceWidth lead = 3) :
    next lead rest = .scalar c width
      ↔ ∃ b b' more, rest = b :: b' :: more
        ∧ ((secondRange lead).1 ≤ b && b ≤ (secondRange lead).2) = true ∧ isContinuation b' = true
        ∧ c = Char.ofNat ((lead.toNat % 16 * 64 + payload b) * 64 + payload b') ∧ width = 3 := by
  simp only [next, h]
  constructor
  · intro hnext
    split at hnext
    case h_1 b more =>
      split at hnext
      case isTrue hsecond =>
        split at hnext
        case h_1 b' more =>
          split at hnext
          case isTrue hcontinues =>
            cases hnext
            exact ⟨b, b', more, rfl, hsecond, hcontinues, rfl, rfl⟩
          case isFalse => cases hnext
        case h_2 => cases hnext
      case isFalse => cases hnext
    case h_2 => cases hnext
  · rintro ⟨b, b', more, rfl, hsecond, hcontinues, rfl, rfl⟩
    simp only [if_pos hsecond, if_pos hcontinues]

theorem next_eq_scalar_iff_four (h : sequenceWidth lead = 4) :
    next lead rest = .scalar c width
      ↔ ∃ b b' b'' more, rest = b :: b' :: b'' :: more
        ∧ ((secondRange lead).1 ≤ b && b ≤ (secondRange lead).2) = true ∧ isContinuation b' = true
        ∧ isContinuation b'' = true
        ∧ c = Char.ofNat
          (((lead.toNat % 8 * 64 + payload b) * 64 + payload b') * 64 + payload b'')
        ∧ width = 4 := by
  simp only [next, h]
  constructor
  · intro hnext
    split at hnext
    case h_1 b more =>
      split at hnext
      case isTrue hsecond =>
        split at hnext
        case h_1 b' more =>
          split at hnext
          case isTrue hcontinues =>
            split at hnext
            case h_1 b'' more =>
              split at hnext
              case isTrue hcontinues' =>
                cases hnext
                exact ⟨b, b', b'', more, rfl, hsecond, hcontinues, hcontinues', rfl, rfl⟩
              case isFalse => cases hnext
            case h_2 => cases hnext
          case isFalse => cases hnext
        case h_2 => cases hnext
      case isFalse => cases hnext
    case h_2 => cases hnext
  · rintro ⟨b, b', b'', more, rfl, hsecond, hcontinues, hcontinues', rfl, rfl⟩
    simp only [if_pos hsecond, if_pos hcontinues, if_pos hcontinues']

end Widths

/-- A value that is a character is read from its bytes. -/
theorem next_of_spells {v : Nat} (hvalid : v.isValidChar) {lead : UInt8} {tail : Bytes}
    (h : Spells v ((lead :: tail).map UInt8.toNat)) (rest : Bytes) :
    next lead (tail ++ rest) = .scalar (Char.ofNat v) (tail.length + 1) := by
  rw [List.map_cons] at h
  generalize hlead : lead.toNat = n at h
  generalize htail : tail.map UInt8.toNat = ns at h
  cases h with
  | one high =>
    cases List.map_eq_nil_iff.1 htail
    have hwidth : sequenceWidth lead = 1 := by
      rw [sequenceWidth_eq, if_pos (by omega)]
    exact (next_eq_scalar_iff_one hwidth).2 ⟨by rw [hlead], rfl⟩
  | two low high =>
    obtain ⟨b, rfl, hb⟩ := List.map_eq_singleton_iff.1 htail
    have hwidth : sequenceWidth lead = 2 := by
      rw [sequenceWidth_eq, if_neg (by omega), if_neg (by omega), if_pos (by omega)]
    obtain ⟨hcontinues, hpayload⟩ := isContinuation_of_toNat hb
    have hvalue : lead.toNat % 32 * 64 + payload b = v := by omega
    exact (next_eq_scalar_iff_two hwidth).2 ⟨b, rest, rfl, hcontinues, by rw [hvalue], rfl⟩
  | three low high =>
    obtain ⟨b, tail, rfl, hb, htail⟩ := List.map_eq_cons_iff.1 htail
    obtain ⟨c, rfl, hc⟩ := List.map_eq_singleton_iff.1 htail
    have hwidth : sequenceWidth lead = 3 := by
      rw [sequenceWidth_eq, if_neg (by omega), if_neg (by omega), if_neg (by omega),
        if_pos (by omega)]
    -- the forms of lesser values begin with 0xE0, those of surrogates with 0xED
    have hsecond := @le_and_le_secondRange lead b (by omega)
      (by rcases hvalid with h | h <;> omega) (by omega) (by omega) (by omega) (by omega)
    obtain ⟨-, hpayload⟩ := isContinuation_of_toNat hb
    obtain ⟨hcontinues, hpayload'⟩ := isContinuation_of_toNat hc
    have hvalue : (lead.toNat % 16 * 64 + payload b) * 64 + payload c = v := by omega
    exact (next_eq_scalar_iff_three hwidth).2
      ⟨b, c, rest, rfl, hsecond, hcontinues, by rw [hvalue], rfl⟩
  | four low high =>
    obtain ⟨b, tail, rfl, hb, htail⟩ := List.map_eq_cons_iff.1 htail
    obtain ⟨c, tail, rfl, hc, htail⟩ := List.map_eq_cons_iff.1 htail
    obtain ⟨d, rfl, hd⟩ := List.map_eq_singleton_iff.1 htail
    have hwidth : sequenceWidth lead = 4 := by
      rw [sequenceWidth_eq, if_neg (by omega), if_neg (by omega), if_neg (by omega),
        if_neg (by omega), if_pos (by omega)]
    -- the forms of lesser values begin with 0xF0, those of greater ones with 0xF4
    have hsecond := @le_and_le_secondRange lead b (by omega) (by omega) (by omega) (by omega)
      (by omega) (by omega)
    obtain ⟨-, hpayload⟩ := isContinuation_of_toNat hb
    obtain ⟨hcontinues, hpayload'⟩ := isContinuation_of_toNat hc
    obtain ⟨hcontinues', hpayload''⟩ := isContinuation_of_toNat hd
    have hvalue : ((lead.toNat % 8 * 64 + payload b) * 64 + payload c) * 64 + payload d = v := by
      omega
    exact (next_eq_scalar_iff_four hwidth).2
      ⟨b, c, d, rest, rfl, hsecond, hcontinues, hcontinues', by rw [hvalue], rfl⟩

/-- The first character of encoded text is read back. -/
theorem next_utf8EncodeChar {c : Char} {lead : UInt8} {tail : Bytes}
    (h : String.utf8EncodeChar c = lead :: tail) (rest : Bytes) :
    next lead (tail ++ rest) = .scalar c (tail.length + 1) := by
  have hspells := spells_utf8EncodeChar c
  rw [h] at hspells
  have hvalue : Char.ofNat c.val.toNat = c := Char.ofNat_toNat c
  rw [next_of_spells c.valid hspells, hvalue]

theorem replaceOnto_flatMap (chars onto : List Char) :
    replaceOnto onto (chars.flatMap String.utf8EncodeChar) = chars.reverse ++ onto := by
  induction chars generalizing onto with
  | nil => rw [List.flatMap_nil, replaceOnto]; rfl
  | cons c rest ih =>
    obtain ⟨lead, tail, hbytes⟩ := List.exists_cons_of_ne_nil (utf8EncodeChar_ne_nil c)
    rw [List.flatMap_cons, hbytes, List.cons_append, replaceOnto, next_utf8EncodeChar hbytes]
    dsimp only
    rw [Nat.add_sub_cancel, List.drop_left, ih, List.reverse_cons, List.append_assoc]
    rfl

/-- Text is read back from its bytes. -/
@[simp] theorem decodeReplacing_encode (text : String) :
    decodeReplacing (encode text) = text := by
  rw [decodeReplacing, encode_eq_flatMap, replaceOnto_flatMap, List.append_nil,
    List.reverse_reverse, String.ofList_toList]

theorem decodeOnto_flatMap (chars onto : List Char) :
    decodeOnto onto (chars.flatMap String.utf8EncodeChar) = some (chars.reverse ++ onto) := by
  induction chars generalizing onto with
  | nil => rw [List.flatMap_nil, decodeOnto]; rfl
  | cons c rest ih =>
    obtain ⟨lead, tail, hbytes⟩ := List.exists_cons_of_ne_nil (utf8EncodeChar_ne_nil c)
    rw [List.flatMap_cons, hbytes, List.cons_append, decodeOnto, next_utf8EncodeChar hbytes]
    dsimp only
    rw [Nat.add_sub_cancel, List.drop_left, ih, List.reverse_cons, List.append_assoc]
    rfl

@[simp] theorem decode?_encode (text : String) : decode? (encode text) = some text := by
  rw [decode?, encode_eq_flatMap, decodeOnto_flatMap, Option.map_some, List.append_nil,
    List.reverse_reverse, String.ofList_toList]

/-! ## What is decoded -/

theorem Spells.unique {v : Nat} {bytes bytes' : List Nat} (h : Spells v bytes)
    (h' : Spells v bytes') : bytes = bytes' := by
  cases h <;> cases h' <;> first | rfl | omega

theorem Spells.of_eq {v : Nat} {bytes bytes' : List Nat} (h : Spells v bytes)
    (heq : bytes' = bytes) : Spells v bytes' :=
  heq ▸ h

/-- The width of a sequence says in which range its lead byte is. -/
theorem sequenceWidth_cases (lead : UInt8) :
    sequenceWidth lead = 1 ∧ lead.toNat < 0x80
      ∨ sequenceWidth lead = 2 ∧ 0xC2 ≤ lead.toNat ∧ lead.toNat < 0xE0
      ∨ sequenceWidth lead = 3 ∧ 0xE0 ≤ lead.toNat ∧ lead.toNat < 0xF0
      ∨ sequenceWidth lead = 4 ∧ 0xF0 ≤ lead.toNat ∧ lead.toNat < 0xF5
      ∨ sequenceWidth lead = 0 := by
  rw [sequenceWidth_eq]
  repeat' split
  all_goals omega

/-- A byte that continues a sequence carries six bits. -/
theorem toNat_of_isContinuation {b : UInt8} (h : isContinuation b = true) :
    b.toNat = payload b + 128 ∧ payload b < 64 := by
  simp only [isContinuation, Bool.and_eq_true, decide_eq_true_eq, UInt8.le_iff_toNat_le,
    UInt8.reduceToNat] at h
  rw [payload]
  omega

/-- A second byte that may follow its lead byte makes neither a longer form nor a surrogate, nor too
great a value. -/
theorem toNat_of_le_secondRange {lead b : UInt8}
    (h : ((secondRange lead).1 ≤ b && b ≤ (secondRange lead).2) = true) :
    (lead.toNat = 0xE0 → 0xA0 ≤ b.toNat) ∧ (lead.toNat = 0xED → b.toNat ≤ 0x9F)
      ∧ (lead.toNat = 0xF0 → 0x90 ≤ b.toNat) ∧ (lead.toNat = 0xF4 → b.toNat ≤ 0x8F)
      ∧ b.toNat = payload b + 128 ∧ payload b < 64 := by
  simp only [secondRange, ← UInt8.toNat_inj, UInt8.reduceToNat] at h
  rw [payload]
  repeat' split at h
  all_goals
    simp only [Bool.and_eq_true, decide_eq_true_eq, UInt8.le_iff_toNat_le, UInt8.reduceToNat] at h
    omega

/-- What is read as a character is the form of its value. -/
theorem exists_spells_of_next {lead : UInt8} {rest : Bytes} {c : Char} {width : Nat}
    (h : next lead rest = .scalar c width) :
    ∃ v tail, v.isValidChar ∧ c = Char.ofNat v ∧ rest = tail ++ rest.drop (width - 1)
      ∧ Spells v ((lead :: tail).map UInt8.toNat) := by
  rcases sequenceWidth_cases lead with ⟨hwidth, hlead⟩ | ⟨hwidth, hlead⟩ | ⟨hwidth, hlead⟩
    | ⟨hwidth, hlead⟩ | hwidth
  · obtain ⟨rfl, rfl⟩ := (next_eq_scalar_iff_one hwidth).1 h
    exact ⟨lead.toNat, [], .inl (by omega), rfl, rfl, .one hlead⟩
  · obtain ⟨b, more, rfl, hcontinues, rfl, rfl⟩ := (next_eq_scalar_iff_two hwidth).1 h
    obtain ⟨hb, hsix⟩ := toNat_of_isContinuation hcontinues
    refine ⟨lead.toNat % 32 * 64 + payload b, [b], .inl (by omega), rfl, rfl, ?_⟩
    refine .of_eq (.two (by omega) (by omega)) ?_
    simp only [List.map_cons, List.map_nil, List.cons.injEq, and_true]
    omega
  · obtain ⟨b, b', more, rfl, hsecond, hcontinues, rfl, rfl⟩ :=
      (next_eq_scalar_iff_three hwidth).1 h
    obtain ⟨hlong, hsurrogate, -, -, hb, hsix⟩ := toNat_of_le_secondRange hsecond
    obtain ⟨hb', hsix'⟩ := toNat_of_isContinuation hcontinues
    refine ⟨(lead.toNat % 16 * 64 + payload b) * 64 + payload b', [b, b'], ?_, rfl, rfl, ?_⟩
    · -- the lead byte 0xED is that of the values below the surrogates
      by_cases hlow : lead.toNat ≤ 0xED
      · exact .inl (by omega)
      · exact .inr (by omega)
    · refine .of_eq (.three (by omega) (by omega)) ?_
      simp only [List.map_cons, List.map_nil, List.cons.injEq, and_true]
      omega
  · obtain ⟨b, b', b'', more, rfl, hsecond, hcontinues, hcontinues', rfl, rfl⟩ :=
      (next_eq_scalar_iff_four hwidth).1 h
    obtain ⟨-, -, hlong, hgreat, hb, hsix⟩ := toNat_of_le_secondRange hsecond
    obtain ⟨hb', hsix'⟩ := toNat_of_isContinuation hcontinues
    obtain ⟨hb'', hsix''⟩ := toNat_of_isContinuation hcontinues'
    refine ⟨((lead.toNat % 8 * 64 + payload b) * 64 + payload b') * 64 + payload b'',
      [b, b', b''], .inr (by omega), rfl, rfl, ?_⟩
    refine .of_eq (.four (by omega) (by omega)) ?_
    simp only [List.map_cons, List.map_nil, List.cons.injEq, and_true]
    omega
  · -- the byte leads no sequence
    simp only [next, hwidth] at h
    cases h

/-- What is read as a character are its bytes. -/
theorem eq_of_next {lead : UInt8} {rest : Bytes} {c : Char} {width : Nat}
    (h : next lead rest = .scalar c width) :
    lead :: rest = String.utf8EncodeChar c ++ rest.drop (width - 1) := by
  obtain ⟨v, tail, hvalid, rfl, hrest, hspells⟩ := exists_spells_of_next h
  have hvalue : (Char.ofNat v).val.toNat = v := by
    rw [Char.ofNat, dif_pos hvalid]
    rfl
  have hchar := spells_utf8EncodeChar (Char.ofNat v)
  rw [hvalue] at hchar
  have hbytes : lead :: tail = String.utf8EncodeChar (Char.ofNat v) :=
    (List.map_inj_right fun _ _ => UInt8.toNat_inj.1).1 (hspells.unique hchar)
  rw [← hbytes, List.cons_append, ← hrest]

theorem eq_of_decodeOnto {bytes : Bytes} {onto chars : List Char}
    (h : decodeOnto onto bytes = some chars) :
    ∃ read : List Char, chars = read.reverse ++ onto
      ∧ bytes = read.flatMap String.utf8EncodeChar := by
  fun_induction decodeOnto onto bytes with
  | case1 onto =>
    rw [Option.some.injEq] at h
    exact ⟨[], h.symm, rfl⟩
  | case2 onto lead rest c width hnext ih =>
    obtain ⟨read, rfl, hrest⟩ := ih h
    refine ⟨c :: read, by simp, ?_⟩
    rw [List.flatMap_cons, ← hrest]
    exact eq_of_next hnext
  | case3 => contradiction

/-- Bytes are decoded exactly if they are those of a text. -/
theorem decode?_eq_some_iff {bytes : Bytes} {text : String} :
    decode? bytes = some text ↔ bytes = encode text := by
  constructor
  · intro h
    rw [decode?, Option.map_eq_some_iff] at h
    obtain ⟨chars, hchars, rfl⟩ := h
    obtain ⟨read, rfl, rfl⟩ := eq_of_decodeOnto hchars
    rw [encode_eq_flatMap]
    simp
  · rintro rfl
    exact decode?_encode text

theorem decode?_eq_none_iff {bytes : Bytes} :
    decode? bytes = none ↔ ∀ text, bytes ≠ encode text := by
  rw [Option.eq_none_iff_forall_ne_some]
  constructor
  · intro h text hbytes
    exact h text (decode?_eq_some_iff.2 hbytes)
  · intro h text hdecode
    exact h text (decode?_eq_some_iff.1 hdecode)

/-! ## Texts in a row -/

theorem encode_append (text text' : String) :
    encode (text ++ text') = encode text ++ encode text' := by
  rw [encode_eq_flatMap, encode_eq_flatMap, encode_eq_flatMap, String.toList_append,
    List.flatMap_append]

/-- A byte below 128 spells its own character and is part of no other. -/
theorem mem_encode_of_lt {text : String} {c : Char} {b : UInt8} (hb : b.toNat = c.val.toNat)
    (hlow : b.toNat < 128) (h : b ∈ encode text) : c ∈ text.toList := by
  rw [encode_eq_flatMap, List.mem_flatMap] at h
  obtain ⟨c', hc', hmem⟩ := h
  have hspells := spells_utf8EncodeChar c'
  have hmem' : b.toNat ∈ (String.utf8EncodeChar c').map UInt8.toNat := List.mem_map_of_mem hmem
  have hvalue : c'.val.toNat = c.val.toNat := by
    generalize (String.utf8EncodeChar c').map UInt8.toNat = bytes at hspells hmem'
    cases hspells <;> simp only [List.mem_cons, List.not_mem_nil, or_false] at hmem' <;> omega
  have hsame : c' = c := Char.val_inj.1 (UInt32.toNat_inj.1 hvalue)
  exact hsame ▸ hc'

/-- The last byte of a text, if it is below 128, is its last character. -/
theorem exists_of_encode_eq_append {text : String} {front : Bytes} {c : Char} {b : UInt8}
    (hb : b.toNat = c.val.toNat) (hlow : b.toNat < 128) (h : encode text = front ++ [b]) :
    ∃ start, text = String.ofList (start ++ [c]) ∧ encode (String.ofList start) = front := by
  rw [encode_eq_flatMap] at h
  obtain htext | ⟨start, c', htext⟩ := List.eq_nil_or_concat text.toList
  · rw [htext] at h
    exact absurd h (by simp)
  rw [List.concat_eq_append] at htext
  obtain hnil | ⟨init, last, hbytes⟩ := List.eq_nil_or_concat (String.utf8EncodeChar c')
  · exact absurd hnil (utf8EncodeChar_ne_nil c')
  rw [List.concat_eq_append] at hbytes
  rw [htext, List.flatMap_append, List.flatMap_singleton, hbytes, ← List.append_assoc] at h
  obtain ⟨hfront, hlast⟩ := List.append_inj' h rfl
  obtain rfl : last = b := by simpa using hlast
  have hspells := spells_utf8EncodeChar c'
  rw [hbytes, List.map_append, List.map_singleton] at hspells
  -- the last byte of a longer sequence is 128 or more
  have hone : init = [] ∧ c'.val.toNat = last.toNat := by
    generalize hmap : init.map UInt8.toNat ++ [last.toNat] = bytes at hspells
    have hend := congrArg List.getLast? hmap
    cases hspells with
    | one =>
      have hlength := congrArg List.length hmap
      simp at hend hlength
      exact ⟨List.eq_nil_of_length_eq_zero (by simpa using hlength), hend.symm⟩
    | two | three | four =>
      simp at hend
      omega
  obtain ⟨rfl, hvalue⟩ := hone
  have hsame : c' = c := Char.val_inj.1 (UInt32.toNat_inj.1 (hvalue.trans hb))
  refine ⟨start, ?_, ?_⟩
  · rw [← hsame, ← htext, String.ofList_toList]
  · rw [encode_eq_flatMap, String.toList_ofList, ← hfront, List.append_nil]

/-! ## ASCII -/

/-- Only the characters of ASCII are spelled by bytes below 128: each by one, its value. -/
theorem Spells.eq_singleton {v : Nat} {bytes : List Nat} (h : Spells v bytes)
    (hlow : ∀ b ∈ bytes, b < 128) : bytes = [v] := by
  cases h with
  | one high => rfl
  | two low high | three low high | four low high =>
    have hlead := hlow _ (List.mem_cons_self ..)
    omega

theorem map_decodeByte_utf8EncodeChar {c : Char}
    (h : ∀ b ∈ String.utf8EncodeChar c, b < 128) :
    (String.utf8EncodeChar c).map Codepage437.decodeByte = [c] := by
  have hvalue : (String.utf8EncodeChar c).map UInt8.toNat = [c.val.toNat] := by
    apply (spells_utf8EncodeChar c).eq_singleton
    intro n hn
    obtain ⟨b, hb, rfl⟩ := List.mem_map.1 hn
    exact UInt8.lt_iff_toNat_lt.1 (h b hb)
  obtain ⟨b, hbytes, hb⟩ := List.map_eq_singleton_iff.1 hvalue
  have hlow : b < 128 := h b (hbytes ▸ List.mem_singleton_self b)
  have hchar : Char.ofNat c.val.toNat = c := Char.ofNat_toNat c
  rw [hbytes, List.map_singleton, Codepage437.decodeByte, if_pos hlow, hb, hchar]

/-- Text of ASCII is read back in the old character set. -/
theorem decode_encode_of_ascii {text : String} (h : ∀ b ∈ encode text, b < 128) :
    Codepage437.decode (encode text) = text := by
  rw [encode_eq_flatMap] at h ⊢
  suffices hchars : (text.toList.flatMap String.utf8EncodeChar).map Codepage437.decodeByte
      = text.toList by
    rw [Codepage437.decode, hchars, String.ofList_toList]
  generalize text.toList = chars at h ⊢
  induction chars with
  | nil => rfl
  | cons c rest ih =>
    rw [List.flatMap_cons] at h ⊢
    rw [List.map_append,
      map_decodeByte_utf8EncodeChar fun b hb => h b (List.mem_append_left _ hb),
      ih fun b hb => h b (List.mem_append_right _ hb)]
    rfl

end Reline.Text.Utf8
