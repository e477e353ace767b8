/-
  Reline.Proofs.Json.Number

  Numbers of JSON text: what their readers accept.

  A number goes as far as its characters go, so a reader takes the text of a
  number only in front of something that cannot continue it. Where that is left
  out, in what is said of a text that was accepted, it does not matter: what
  follows a number inside a list or an object never continues it.
-/

import Mathlib.Data.List.TakeDrop
import Mathlib.Data.List.TakeWhile
import Reline.Json.Number
import Reline.Proofs.Except
import Reline.Proofs.Json.Text

namespace Reline.Json

variable {s r : List Char}

/-! ## Digits -/

/-- Whether a text is one digit or several. -/
def Digits (s : List Char) : Prop := s ≠ [] ∧ ∀ c ∈ s, c.isDigit = true

/-- Whether a text is digits without zeros in front of others. -/
def Whole (s : List Char) : Prop := Digits s ∧ ∀ rest, s = '0' :: rest → rest = []

/-- Whether a text does not continue digits. -/
def EndsDigits (r : List Char) : Prop := ∀ c, r.head? = some c → c.isDigit = false

/-- Whether a text does not continue a number. -/
def EndsNumber (r : List Char) : Prop :=
  ∀ c, r.head? = some c → c.isDigit = false ∧ c ≠ '.' ∧ c ≠ 'e' ∧ c ≠ 'E'

theorem EndsNumber.endsDigits (h : EndsNumber r) : EndsDigits r :=
  fun c hc => (h c hc).1

theorem endsDigits_cons {c : Char} (h : c.isDigit = false) (r : List Char) :
    EndsDigits (c :: r) := by
  intro c' hc'
  cases hc'
  exact h

theorem endsNumber_cons {c : Char}
    (h : c.isDigit = false ∧ c ≠ '.' ∧ c ≠ 'e' ∧ c ≠ 'E') (r : List Char) :
    EndsNumber (c :: r) := by
  intro c' hc'
  cases hc'
  exact h

/-- Blanks end a number, and so does what ends it at once behind none. -/
theorem EndsNumber.append_blanks {blanks : List Char} (hblanks : Blanks blanks)
    (h : EndsNumber r) : EndsNumber (blanks ++ r) := by
  cases blanks with
  | nil => exact h
  | cons c blanks =>
    refine endsNumber_cons ?_ _
    have hc : isSpace c = true := hblanks c (List.mem_cons_self ..)
    simp only [isSpace, Bool.or_eq_true, decide_eq_true_eq] at hc
    rcases hc with ((rfl | rfl) | rfl) | rfl <;> decide

theorem spanDigits_append {digits : List Char} (h : ∀ c ∈ digits, c.isDigit = true)
    (hr : EndsDigits r) : spanDigits (digits ++ r) = (digits, r) := by
  have hnone : r.takeWhile Char.isDigit = [] ∧ r.dropWhile Char.isDigit = r := by
    cases r with
    | nil => exact ⟨rfl, rfl⟩
    | cons c r =>
      have hc : c.isDigit = false := hr c rfl
      simp [hc]
  rw [spanDigits, List.span_eq_takeWhile_dropWhile, List.takeWhile_append_of_pos h,
    List.dropWhile_append_of_pos h, hnone.1, hnone.2, List.append_nil]

theorem spanDigits_eq {digits : List Char} (h : spanDigits s = (digits, r)) :
    s = digits ++ r ∧ ∀ c ∈ digits, c.isDigit = true := by
  rw [spanDigits, List.span_eq_takeWhile_dropWhile, Prod.mk.injEq] at h
  obtain ⟨rfl, rfl⟩ := h
  exact ⟨List.takeWhile_append_dropWhile.symm, fun c hc => List.mem_takeWhile_imp hc⟩

/-! ## The parts of a number -/

/-- The exponent of a number, with its letter. -/
inductive ExponentText : List Char → Bool × List Char → Prop where
  | none : ExponentText [] (false, [])
  | plain {letter : Char} {digits : List Char} (letter_eq : letter = 'e' ∨ letter = 'E')
    (digits_mem : Digits digits) : ExponentText (letter :: digits) (false, digits)
  | plus {letter : Char} {digits : List Char} (letter_eq : letter = 'e' ∨ letter = 'E')
    (digits_mem : Digits digits) : ExponentText (letter :: '+' :: digits) (false, digits)
  | minus {letter : Char} {digits : List Char} (letter_eq : letter = 'e' ∨ letter = 'E')
    (digits_mem : Digits digits) : ExponentText (letter :: '-' :: digits) (true, digits)

/-- The fraction of a number, with its point. -/
inductive FractionText : List Char → List Char → Prop where
  | none : FractionText [] []
  | some {digits : List Char} (digits_mem : Digits digits) : FractionText ('.' :: digits) digits

/-- The sign of a number. -/
def signText (negative : Bool) : List Char := if negative then ['-'] else []

/-- The text of a number with given parts. -/
inductive LiteralText : List Char → Literal → Prop where
  | mk {negative : Bool} {whole f fraction e : List Char} {exponent : Bool × List Char}
    (whole_mem : Whole whole) (fraction_mem : FractionText f fraction)
    (exponent_mem : ExponentText e exponent) :
    LiteralText (signText negative ++ (whole ++ (f ++ e))) ⟨negative, whole, fraction, exponent⟩

/-- A number that is passed over. -/
def NumberText (body : List Char) : Prop := ∃ literal, LiteralText body literal

/-! ## Reading a number -/

/-- The sign in front of an exponent, and the text behind it. -/
def exponentSign (s : List Char) : Bool × List Char :=
  match s with
  | '+' :: rest => (false, rest)
  | '-' :: rest => (true, rest)
  | _ => (false, s)

/-- The sign in front of a number, and the text behind it. -/
def numberSign (s : List Char) : Bool × List Char :=
  match s with
  | '-' :: rest => (true, rest)
  | _ => (false, s)

theorem readExponent_eq (atEnd : Cause) (s : List Char) :
    readExponent atEnd s = match spanDigits (exponentSign s).2 with
      | ([], []) => failAt atEnd []
      | ([], rest) => failAt .invalidNumber rest
      | (digits, rest) => .ok (((exponentSign s).1, digits), rest) := rfl

theorem readLiteral_eq (atEnd : Cause) (s : List Char) :
    readLiteral atEnd s = match spanDigits (numberSign s).2 with
      | ([], []) => failAt atEnd []
      | ([], rest) => failAt .invalidNumber rest
      | ('0' :: digit :: digits, rest) => failAt .invalidNumber (digit :: digits ++ rest)
      | (whole, rest) => readFraction atEnd ⟨(numberSign s).1, whole, [], (false, [])⟩ rest := rfl

theorem exponentSign_of_isDigit {d : Char} (h : d.isDigit = true) (s : List Char) :
    exponentSign (d :: s) = (false, d :: s) := by
  rw [exponentSign.eq_def]
  split
  case h_1 heq | h_2 heq =>
    cases heq
    cases h
  case h_3 => rfl

theorem exponentSign_cases (s : List Char) :
    exponentSign s = (false, s) ∨ (∃ rest, s = '+' :: rest ∧ exponentSign s = (false, rest))
      ∨ ∃ rest, s = '-' :: rest ∧ exponentSign s = (true, rest) := by
  rw [exponentSign.eq_def]
  split
  case h_1 rest => exact .inr (.inl ⟨rest, rfl, rfl⟩)
  case h_2 rest => exact .inr (.inr ⟨rest, rfl, rfl⟩)
  case h_3 => exact .inl rfl

theorem numberSign_of_isDigit {d : Char} (h : d.isDigit = true) (s : List Char) :
    numberSign (d :: s) = (false, d :: s) := by
  rw [numberSign.eq_def]
  split
  case h_1 heq =>
    cases heq
    cases h
  case h_2 => rfl

/-- The sign of a number and what follows it make up the text. -/
theorem signText_numberSign (s : List Char) :
    s = signText (numberSign s).1 ++ (numberSign s).2 := by
  rw [numberSign.eq_def]
  split <;> rfl

theorem exists_of_readExponent {atEnd : Cause} {exponent : Bool × List Char}
    (h : readExponent atEnd s = .ok (exponent, r)) {letter : Char}
    (hletter : letter = 'e' ∨ letter = 'E') :
    ∃ body, letter :: s = body ++ r ∧ ExponentText body exponent := by
  rw [readExponent_eq] at h
  split at h
  case h_1 => simp at h
  case h_2 => simp at h
  case h_3 digits rest _ hne hspan =>
    cases h
    obtain ⟨hs, hall⟩ := spanDigits_eq hspan
    have hdigits : Digits digits := ⟨hne, hall⟩
    rcases exponentSign_cases s with hsign | ⟨rest, rfl, hsign⟩ | ⟨rest, rfl, hsign⟩
    · rw [hsign] at hs ⊢
      exact ⟨letter :: digits, by simpa using hs, .plain hletter hdigits⟩
    · rw [hsign] at hs ⊢
      exact ⟨letter :: '+' :: digits, by simpa using hs, .plus hletter hdigits⟩
    · rw [hsign] at hs ⊢
      exact ⟨letter :: '-' :: digits, by simpa using hs, .minus hletter hdigits⟩

/-- The digits of an exponent are read behind any of its signs. -/
theorem readExponent_of_exponentSign {atEnd : Cause} {digits : List Char} {negative : Bool}
    (h : Digits digits) (hr : EndsDigits r)
    (hsign : exponentSign s = (negative, digits ++ r)) :
    readExponent atEnd s = .ok ((negative, digits), r) := by
  obtain ⟨hne, hall⟩ := h
  rw [readExponent_eq, hsign, spanDigits_append hall hr]
  obtain ⟨d, digits, rfl⟩ := List.exists_cons_of_ne_nil hne
  rfl

theorem exists_of_readTail {atEnd : Cause} {literal result : Literal}
    (hliteral : literal.exponent = (false, []))
    (h : readTail atEnd literal s = .ok (result, r)) :
    ∃ e exponent, s = e ++ r ∧ ExponentText e exponent
      ∧ result = { literal with exponent := exponent } := by
  rw [readTail.eq_def] at h
  split at h
  case h_1 =>
    obtain ⟨⟨exponent, after⟩, hread, heq⟩ := map_eq_ok_iff.1 h
    cases heq
    obtain ⟨e, hs, hexponent⟩ := exists_of_readExponent hread (.inl rfl)
    exact ⟨e, exponent, hs, hexponent, rfl⟩
  case h_2 =>
    obtain ⟨⟨exponent, after⟩, hread, heq⟩ := map_eq_ok_iff.1 h
    cases heq
    obtain ⟨e, hs, hexponent⟩ := exists_of_readExponent hread (.inr rfl)
    exact ⟨e, exponent, hs, hexponent, rfl⟩
  case h_3 =>
    cases h
    refine ⟨[], (false, []), rfl, .none, ?_⟩
    rw [← hliteral]

theorem readTail_append {atEnd : Cause} {literal : Literal}
    (hliteral : literal.exponent = (false, [])) {e : List Char} {exponent : Bool × List Char}
    (h : ExponentText e exponent) (hr : EndsNumber r) :
    readTail atEnd literal (e ++ r) = .ok ({ literal with exponent := exponent }, r) := by
  -- an exponent begins with its letter; without one, the literal is as it was
  cases h with
  | none =>
    rw [List.nil_append, readTail.eq_def]
    split
    case h_1 rest => exact absurd rfl (hr 'e' rfl).2.2.1
    case h_2 rest => exact absurd rfl (hr 'E' rfl).2.2.2
    case h_3 => rw [← hliteral]
  | @plain letter digits hletter hdigits =>
    obtain ⟨d, digits, rfl⟩ := List.exists_cons_of_ne_nil hdigits.1
    have hd : d.isDigit = true := hdigits.2 d (List.mem_cons_self ..)
    have hread : readExponent atEnd (d :: (digits ++ r)) = .ok ((false, d :: digits), r) :=
      readExponent_of_exponentSign hdigits hr.endsDigits (exponentSign_of_isDigit hd (digits ++ r))
    rcases hletter with rfl | rfl
    all_goals
      rw [List.cons_append, List.cons_append, readTail, hread]
      rfl
  | @plus letter digits hletter hdigits =>
    have hread : readExponent atEnd ('+' :: (digits ++ r)) = .ok ((false, digits), r) :=
      readExponent_of_exponentSign hdigits hr.endsDigits rfl
    rcases hletter with rfl | rfl
    all_goals
      rw [List.cons_append, List.cons_append, readTail, hread]
      rfl
  | @minus letter digits hletter hdigits =>
    have hread : readExponent atEnd ('-' :: (digits ++ r)) = .ok ((true, digits), r) :=
      readExponent_of_exponentSign hdigits hr.endsDigits rfl
    rcases hletter with rfl | rfl
    all_goals
      rw [List.cons_append, List.cons_append, readTail, hread]
      rfl

theorem exists_of_readFraction {atEnd : Cause} {literal result : Literal}
    (hfraction : literal.fraction = []) (hexponent : literal.exponent = (false, []))
    (h : readFraction atEnd literal s = .ok (result, r)) :
    ∃ f e fraction exponent, s = f ++ (e ++ r) ∧ FractionText f fraction
      ∧ ExponentText e exponent
      ∧ result = { literal with fraction := fraction, exponent := exponent } := by
  rw [readFraction.eq_def] at h
  split at h
  case h_1 rest =>
    split at h
    case h_1 => simp at h
    case h_2 => simp at h
    case h_3 digits after _ hne hspan =>
      obtain ⟨rfl, hall⟩ := spanDigits_eq hspan
      obtain ⟨e, exponent, rfl, he, rfl⟩ := exists_of_readTail (by exact hexponent) h
      exact ⟨'.' :: digits, e, digits, exponent, rfl, .some ⟨hne, hall⟩, he, rfl⟩
  case h_2 =>
    obtain ⟨e, exponent, rfl, he, rfl⟩ := exists_of_readTail hexponent h
    refine ⟨[], e, [], exponent, rfl, .none, he, ?_⟩
    rw [← hfraction]

theorem endsDigits_of_exponentText {e : List Char} {exponent : Bool × List Char}
    (h : ExponentText e exponent) (hr : EndsNumber r) : EndsDigits (e ++ r) := by
  cases h with
  | none => exact hr.endsDigits
  | plain hletter | plus hletter | minus hletter =>
    refine endsDigits_cons ?_ _
    rcases hletter with rfl | rfl <;> rfl

theorem readFraction_append {atEnd : Cause} {literal : Literal}
    (hfraction : literal.fraction = []) (hexponent : literal.exponent = (false, []))
    {f e fraction : List Char} {exponent : Bool × List Char} (hf : FractionText f fraction)
    (he : ExponentText e exponent) (hr : EndsNumber r) :
    readFraction atEnd literal (f ++ (e ++ r))
      = .ok ({ literal with fraction := fraction, exponent := exponent }, r) := by
  cases hf with
  | none =>
    rw [List.nil_append, readFraction.eq_def]
    split
    case h_1 rest heq =>
      -- neither an exponent nor what follows begins with a point
      cases he with
      | none =>
        rw [List.nil_append] at heq
        exact absurd rfl (hr '.' (by rw [heq]; rfl)).2.1
      | plain hletter | plus hletter | minus hletter =>
        rcases hletter with rfl | rfl <;> cases heq
    case h_2 =>
      rw [readTail_append hexponent he hr, ← hfraction]
  | some hdigits =>
    obtain ⟨hne, hall⟩ := hdigits
    have hspan := spanDigits_append hall (endsDigits_of_exponentText he hr)
    rw [List.cons_append, readFraction, hspan]
    obtain ⟨d, digits, rfl⟩ := List.exists_cons_of_ne_nil hne
    dsimp only
    rw [readTail_append (by exact hexponent) he hr]

theorem exists_of_readLiteral {atEnd : Cause} {literal : Literal}
    (h : readLiteral atEnd s = .ok (literal, r)) :
    ∃ body, s = body ++ r ∧ LiteralText body literal := by
  rw [readLiteral_eq] at h
  split at h
  case h_1 => simp at h
  case h_2 => simp at h
  case h_3 => simp at h
  case h_4 whole rest _ hne hzero hspan =>
    obtain ⟨hs, hall⟩ := spanDigits_eq hspan
    have hwhole : Whole whole := by
      refine ⟨⟨hne, hall⟩, ?_⟩
      rintro after rfl
      cases after with
      | nil => rfl
      | cons digit digits => exact absurd rfl (hzero digit digits)
    obtain ⟨f, e, fraction, exponent, rfl, hf, he, rfl⟩ := exists_of_readFraction rfl rfl h
    refine ⟨_, ?_, .mk hwhole hf he⟩
    calc s = signText (numberSign s).1 ++ (numberSign s).2 := signText_numberSign s
      _ = signText (numberSign s).1 ++ (whole ++ (f ++ e)) ++ r := by rw [hs]; simp

theorem endsDigits_of_fractionText {f e fraction : List Char} {exponent : Bool × List Char}
    (hf : FractionText f fraction) (he : ExponentText e exponent) (hr : EndsNumber r) :
    EndsDigits (f ++ (e ++ r)) := by
  cases hf with
  | none =>
    rw [List.nil_append]
    exact endsDigits_of_exponentText he hr
  | some => exact endsDigits_cons rfl _

/-- The text of a number is read in front of what does not continue it. -/
theorem readLiteral_append {atEnd : Cause} {body : List Char} {literal : Literal}
    (h : LiteralText body literal) (hr : EndsNumber r) :
    readLiteral atEnd (body ++ r) = .ok (literal, r) := by
  obtain @⟨negative, whole, f, fraction, e, exponent, hwhole, hf, he⟩ := h
  obtain ⟨⟨hne, hall⟩, hzero⟩ := hwhole
  have hspan := spanDigits_append hall (endsDigits_of_fractionText hf he hr)
  have hfraction : readFraction atEnd ⟨negative, whole, [], (false, [])⟩ (f ++ (e ++ r))
      = .ok (⟨negative, whole, fraction, exponent⟩, r) :=
    readFraction_append rfl rfl hf he hr
  obtain ⟨d, digits, rfl⟩ := List.exists_cons_of_ne_nil hne
  have hsign : numberSign (signText negative ++ (d :: digits ++ (f ++ e)) ++ r)
      = (negative, d :: digits ++ (f ++ (e ++ r))) := by
    cases negative with
    | true => simp [signText, numberSign]
    | false =>
      have hplain := numberSign_of_isDigit (hall d (List.mem_cons_self ..))
        (digits ++ (f ++ (e ++ r)))
      simpa [signText] using hplain
  rw [readLiteral_eq, hsign, hspan]
  split
  case h_1 heq => cases heq
  case h_2 heq => cases heq
  case h_3 digit digits' rest heq =>
    cases heq
    cases hzero _ rfl
  case h_4 whole' rest' _ _ _ heq =>
    cases heq
    exact hfraction

/-- What a number begins with. -/
theorem LiteralText.exists_cons {body : List Char} {literal : Literal}
    (h : LiteralText body literal) :
    ∃ c rest, body = c :: rest ∧ (c = '-' || c.isDigit) = true := by
  obtain @⟨negative, whole, f, fraction, e, exponent, hwhole, hf, he⟩ := h
  obtain ⟨d, digits, rfl⟩ := List.exists_cons_of_ne_nil hwhole.1.1
  have hd : d.isDigit = true := hwhole.1.2 d (List.mem_cons_self ..)
  cases negative with
  | true => exact ⟨'-', _, rfl, rfl⟩
  | false => exact ⟨d, _, rfl, by simp [hd]⟩

theorem exists_of_skipNumber {a : Unit} (h : skipNumber s = .ok (a, r)) :
    ∃ body, s = body ++ r ∧ NumberText body := by
  rw [skipNumber] at h
  obtain ⟨⟨literal, rest⟩, hread, heq⟩ := map_eq_ok_iff.1 h
  cases heq
  obtain ⟨body, hs, hbody⟩ := exists_of_readLiteral hread
  exact ⟨body, hs, literal, hbody⟩

theorem skipNumber_append {body : List Char} (h : NumberText body) (hr : EndsNumber r) :
    skipNumber (body ++ r) = .ok ((), r) := by
  obtain ⟨literal, hbody⟩ := h
  rw [skipNumber, readLiteral_append hbody hr]
  rfl

/-! ## Integers -/

/-- An integer as it is written: zero without a sign, and no zeros in front of other digits. -/
inductive IntegerText : List Char → Int → Prop where
  | plain {digits : List Char} (whole : Whole digits) :
    IntegerText digits (Nat.ofDigitChars 10 digits 0 : Nat)
  | minus {digits : List Char} (whole : Whole digits) (pos : 0 < Nat.ofDigitChars 10 digits 0) :
    IntegerText ('-' :: digits) (-(Nat.ofDigitChars 10 digits 0 : Nat))

/-- Whether an integer fits into 32 bits. -/
def FitsInt32 (n : Int) : Prop := -0x8000_0000 ≤ n ∧ n < 0x8000_0000

/-- Digits that are all taken make up their number. -/
theorem eq_of_appendDigits {bound n m : Nat} {digits : List Char}
    (h : appendDigits bound n digits = (m, [])) : m = Nat.ofDigitChars 10 digits n := by
  induction digits generalizing n with
  | nil =>
    cases h
    rfl
  | cons c digits ih =>
    rw [appendDigits] at h
    split at h
    case isTrue =>
      rw [ih h, Nat.ofDigitChars_cons, Nat.mul_comm]
    case isFalse => cases h

theorem le_ofDigitChars (digits : List Char) (n : Nat) : n ≤ Nat.ofDigitChars 10 digits n := by
  rw [Nat.ofDigitChars_eq_ofDigitChars_zero]
  have hpow : 1 * n ≤ 10 ^ digits.length * n :=
    Nat.mul_le_mul_right n (Nat.one_le_pow _ _ (by decide))
  omega

/-- Digits of a number within the bound are all taken. -/
theorem appendDigits_eq {bound n : Nat} {digits : List Char}
    (h : Nat.ofDigitChars 10 digits n ≤ bound) :
    appendDigits bound n digits = (Nat.ofDigitChars 10 digits n, []) := by
  induction digits generalizing n with
  | nil => rfl
  | cons c digits ih =>
    rw [Nat.ofDigitChars_cons, Nat.mul_comm] at h ⊢
    have hnext := le_ofDigitChars digits (n * 10 + (c.toNat - '0'.toNat))
    rw [appendDigits, if_pos (by omega), ih h]

theorem exists_of_readNumber_integer {n : Int} (h : readNumber s = .ok (.integer n, r)) :
    ∃ body, s = body ++ r ∧ IntegerText body n := by
  rw [readNumber] at h
  split at h
  case h_1 => cases h
  case h_2 literal rest hread =>
    split at h
    case h_2 =>
      obtain ⟨magnitude, -, heq⟩ := map_eq_ok_iff.1 h
      cases heq
    case h_1 m hinteger =>
      cases h
      obtain ⟨body, rfl, hbody⟩ := exists_of_readLiteral hread
      refine ⟨body, rfl, ?_⟩
      obtain @⟨negative, whole, f, fraction, e, exponent, hwhole, hf, he⟩ := hbody
      rw [Literal.integer?.eq_def] at hinteger
      dsimp only at hinteger
      split at hinteger
      case h_2 => cases hinteger
      case h_1 value hexponent hdigits =>
        have hvalue := eq_of_appendDigits hdigits
        -- neither a fraction nor an exponent is written
        have hplain : f = [] ∧ e = [] := by
          constructor
          · cases hf with
            | none => rfl
            | some h => exact absurd rfl h.1
          · cases he with
            | none => rfl
            | plain _ h | plus _ h | minus _ h => exact absurd hexponent h.1
        obtain ⟨rfl, rfl⟩ := hplain
        cases negative with
        | true =>
          simp only [if_true, Option.ite_none_right_eq_some, Option.some.injEq] at hinteger
          obtain ⟨hpos, rfl⟩ := hinteger
          subst hvalue
          simpa [signText] using IntegerText.minus hwhole hpos.1
        | false =>
          simp only [Bool.false_eq_true, if_false, Option.some.injEq] at hinteger
          subst hinteger hvalue
          simpa [signText] using IntegerText.plain hwhole

/-- An integer of 32 bits is the value of its text. -/
theorem IntegerText.exists_literal {body : List Char} {n : Int} (h : IntegerText body n) :
    ∃ literal, LiteralText body literal ∧ (FitsInt32 n → literal.integer? = some n) := by
  cases h with
  | plain hwhole =>
    refine ⟨⟨false, body, [], (false, [])⟩, ?_, ?_⟩
    · simpa [signText] using @LiteralText.mk false _ _ _ _ _ hwhole .none .none
    · rintro ⟨-, hhigh⟩
      have hdigits := @appendDigits_eq Literal.maxSignificand 0 body
        (by rw [Literal.maxSignificand]; omega)
      simp [Literal.integer?, hdigits]
  | @minus digits hwhole hpos =>
    refine ⟨⟨true, digits, [], (false, [])⟩, ?_, ?_⟩
    · simpa [signText] using @LiteralText.mk true _ _ _ _ _ hwhole .none .none
    · rintro ⟨hlow, -⟩
      have hdigits := @appendDigits_eq Literal.maxSignificand 0 digits
        (by rw [Literal.maxSignificand]; omega)
      have hrange : Nat.ofDigitChars 10 digits 0 ≤ 0x8000_0000_0000_0000 := by omega
      simp [Literal.integer?, hdigits, hpos, hrange]

theorem IntegerText.exists_cons {body : List Char} {n : Int} (h : IntegerText body n) :
    ∃ c rest, body = c :: rest ∧ (c = '-' || c.isDigit) = true := by
  obtain ⟨literal, hbody, -⟩ := h.exists_literal
  exact hbody.exists_cons

/-- An integer of 32 bits is read in front of what does not continue it. -/
theorem readNumber_append {body : List Char} {n : Int} (h : IntegerText body n)
    (hfits : FitsInt32 n) (hr : EndsNumber r) :
    readNumber (body ++ r) = .ok (.integer n, r) := by
  obtain ⟨literal, hbody, hinteger⟩ := h.exists_literal
  rw [readNumber, readLiteral_append hbody hr]
  dsimp only
  rw [hinteger hfits]

/-- A character that begins a number is no blank. -/
theorem isSpace_of_begins {c : Char} (h : (c = '-' || c.isDigit) = true) : isSpace c = false := by
  rw [Bool.eq_false_iff]
  intro hspace
  simp only [isSpace, Bool.or_eq_true, decide_eq_true_eq] at hspace
  rcases hspace with ((rfl | rfl) | rfl) | rfl <;> cases h

/-! ## Integers as they are printed -/

theorem eq_zero_of_toDigits_eq_cons {n : Nat} {rest : List Char}
    (h : Nat.toDigits 10 n = '0' :: rest) : n = 0 := by
  induction n using Nat.strongRecOn generalizing rest with
  | _ n ih =>
    by_cases hn : n < 10
    · rw [Nat.toDigits_of_lt_base hn, List.cons.injEq, Nat.digitChar_eq_zero] at h
      exact h.1
    · rw [Nat.toDigits_of_base_le (by decide) (by omega)] at h
      obtain ⟨d, digits, hdigits⟩ := List.exists_cons_of_ne_nil (@Nat.toDigits_ne_nil (n / 10) 10)
      rw [hdigits, List.cons_append, List.cons.injEq] at h
      rw [h.1] at hdigits
      have hzero := ih (n / 10) (by omega) hdigits
      omega

theorem whole_toDigits (n : Nat) : Whole (Nat.toDigits 10 n) := by
  refine ⟨⟨Nat.toDigits_ne_nil, ?_⟩, ?_⟩
  · intro c hc
    exact Nat.isDigit_of_mem_toDigits (by decide) (by decide) hc
  · intro rest hrest
    rw [eq_zero_of_toDigits_eq_cons hrest] at hrest
    cases hrest
    rfl

/-- An integer is printed as it may be written. -/
theorem integerText_toString (n : Int) : IntegerText (toString n).toList n := by
  rw [Int.toString_eq_repr]
  cases n with
  | ofNat m =>
    rw [Int.repr, Nat.repr_eq_ofList_toDigits, String.toList_ofList]
    have htext := IntegerText.plain (whole_toDigits m)
    rwa [Nat.ofDigitChars_ten_toDigits] at htext
  | negSucc m =>
    have htext := IntegerText.minus (whole_toDigits (m + 1))
      (by rw [Nat.ofDigitChars_ten_toDigits]; omega)
    rw [Nat.ofDigitChars_ten_toDigits] at htext
    rw [Int.repr, Nat.repr_eq_ofList_toDigits, String.toList_append, String.toList_ofList,
      String.toList_ofList]
    exact htext

end Reline.Json
