/-
  Reline.Proofs.Json.Skip

  Values of JSON text that are passed over.

  The grammar is nested, while the loop that passes over a value keeps a list of
  the brackets that are open. What such a list demands of the text still to come
  connects the two: each bracket is closed in turn, the innermost first.
-/

import Reline.Json.Skip
import Reline.Proofs.Json.Number

namespace Reline.Json

variable {s r : List Char} {bracket : Bracket} {brackets left : List Bracket}

/-! ## The grammar -/

/-- The character that opens a bracket. -/
def Bracket.opening : Bracket → Char
  | .list => '['
  | .object => '{'

/-- A value without brackets. -/
inductive ScalarText : List Char → Prop where
  | null : ScalarText ['n', 'u', 'l', 'l']
  | true : ScalarText ['t', 'r', 'u', 'e']
  | false : ScalarText ['f', 'a', 'l', 's', 'e']
  | string {body : List Char} (characters : PassedCharacters body) :
    ScalarText ('"' :: (body ++ ['"']))
  | number {body : List Char} (number : NumberText body) : ScalarText body

/-- A key and its colon. -/
inductive KeyText : List Char → Prop where
  | mk {blanks body blanks' : List Char} (before : Blanks blanks) (key : PassedCharacters body)
    (behind : Blanks blanks') : KeyText (blanks ++ '"' :: (body ++ '"' :: (blanks' ++ [':'])))

/-- What stands in front of an element in a bracket. -/
def LeadText : Bracket → List Char → Prop
  | .list => Blanks
  | .object => KeyText

/-- Text that is passed over: a value, or what follows an element in a bracket up to the end of that
bracket. Blanks may stand in front. -/
inductive Passed : Option Bracket → List Char → Prop where
  | scalar {blanks body : List Char} (before : Blanks blanks) (scalar : ScalarText body) :
    Passed none (blanks ++ body)
  | empty {blanks blanks' : List Char} (before : Blanks blanks) (between : Blanks blanks')
    (bracket : Bracket) : Passed none (blanks ++ bracket.opening :: (blanks' ++ [bracket.closing]))
  | filled {bracket : Bracket} {blanks lead value tail : List Char} (before : Blanks blanks)
    (lead_mem : LeadText bracket lead) (value_mem : Passed none value)
    (tail_mem : Passed (some bracket) tail) :
    Passed none (blanks ++ bracket.opening :: (lead ++ (value ++ tail)))
  | close {blanks : List Char} (before : Blanks blanks) (bracket : Bracket) :
    Passed (some bracket) (blanks ++ [bracket.closing])
  | next {bracket : Bracket} {blanks lead value tail : List Char} (before : Blanks blanks)
    (lead_mem : LeadText bracket lead) (value_mem : Passed none value)
    (tail_mem : Passed (some bracket) tail) :
    Passed (some bracket) (blanks ++ ',' :: (lead ++ (value ++ tail)))

/-- A value that is passed over. -/
abbrev ValueText (body : List Char) : Prop := Passed none body

/-- Whether a text closes brackets that are open, the innermost first. -/
def Closes : List Bracket → List Char → Prop
  | [], body => body = []
  | bracket :: outer, body =>
    ∃ tail rest, body = tail ++ rest ∧ Passed (some bracket) tail ∧ Closes outer rest

/-- Whether a text goes on with the next value in the brackets that are left open, and closes them
then; without any, there is nothing more. -/
def Resumes : List Bracket → List Char → Prop
  | [], body => body = []
  | bracket :: outer, body => ∃ lead value rest, body = lead ++ (value ++ rest)
      ∧ LeadText bracket lead ∧ ValueText value ∧ Closes (bracket :: outer) rest

theorem LeadText.append_blanks {blanks lead : List Char} (hblanks : Blanks blanks)
    (h : LeadText bracket lead) : LeadText bracket (blanks ++ lead) := by
  cases bracket with
  | list => exact hblanks.append h
  | object =>
    obtain ⟨before, key, behind⟩ := h
    rw [← List.append_assoc]
    exact ⟨hblanks.append before, key, behind⟩

/-! ## Only such texts are passed over -/

theorem exists_of_enter {entered : Option Bracket} (h : enter s = .ok (entered, r)) :
    (entered = none ∧ ∃ body, s = body ++ r ∧ ScalarText body)
      ∨ ∃ bracket, entered = some bracket ∧ s = bracket.opening :: r := by
  rw [enter.eq_def] at h
  split at h
  case h_1 => simp at h
  case h_2 c rest =>
    -- the first character tells what the value is
    split at h
    case h_1 =>
      obtain ⟨_, _, rfl, rfl, rfl⟩ := ((reads_readLetters _).map_eq_ok_iff (f := fun _ => none)).1 h
      exact .inl ⟨rfl, _, rfl, .null⟩
    case h_2 =>
      obtain ⟨_, _, rfl, rfl, rfl⟩ := ((reads_readLetters _).map_eq_ok_iff (f := fun _ => none)).1 h
      exact .inl ⟨rfl, _, rfl, .true⟩
    case h_3 =>
      obtain ⟨_, _, rfl, rfl, rfl⟩ := ((reads_readLetters _).map_eq_ok_iff (f := fun _ => none)).1 h
      exact .inl ⟨rfl, _, rfl, .false⟩
    case h_4 =>
      obtain ⟨_, _, rfl, ⟨body, rfl, hbody⟩, rfl⟩ :=
        (reads_skipCharacters.map_eq_ok_iff (f := fun _ => none)).1 h
      exact .inl ⟨rfl, _, rfl, .string hbody⟩
    case h_5 =>
      cases h
      exact .inr ⟨.list, rfl, rfl⟩
    case h_6 =>
      cases h
      exact .inr ⟨.object, rfl, rfl⟩
    case h_7 =>
      split at h
      case isFalse => simp at h
      case isTrue =>
        obtain ⟨⟨a, after⟩, hread, heq⟩ := map_eq_ok_iff.1 h
        obtain ⟨body, hs, hbody⟩ := exists_of_skipNumber hread
        cases heq
        exact .inl ⟨rfl, body, hs, .number hbody⟩

theorem exists_of_skipKey {a : Unit} (h : skipKey s = .ok (a, r)) :
    ∃ body, s = body ++ r ∧ KeyText body := by
  rw [skipKey.eq_def] at h
  split at h
  case h_1 rest hskip =>
    obtain ⟨-, blanks, hblanks, rfl⟩ := skipSpace_eq_cons_iff.1 hskip
    split at h
    case h_1 => cases h
    case h_2 after hread =>
      obtain ⟨_, rfl, body, rfl, hbody⟩ := (reads_skipCharacters ..).1 hread
      split at h
      case h_1 rest' hskip' =>
        obtain ⟨-, blanks', hblanks', rfl⟩ := skipSpace_eq_cons_iff.1 hskip'
        cases h
        exact ⟨_, by simp, hblanks, hbody, hblanks'⟩
      case h_2 => simp at h
      case h_3 => simp at h
  case h_2 => simp at h
  case h_3 => simp at h

/-- What is passed over behind a value closes brackets, and what goes on from there closes the
others. -/
theorem exists_of_leave (h : leave brackets true s = .ok (left, r)) :
    ∃ front, s = front ++ r ∧ ∀ body, Resumes left body → Closes brackets (front ++ body) := by
  induction brackets generalizing s with
  | nil =>
    cases h
    exact ⟨[], rfl, fun body hbody => hbody⟩
  | cons bracket outer ih =>
    rw [leave] at h
    split at h
    case h_1 => simp at h
    case h_2 c rest hskip =>
      obtain ⟨-, blanks, hblanks, rfl⟩ := skipSpace_eq_cons_iff.1 hskip
      split at h
      case isTrue hclosing =>
        obtain ⟨front, rfl, hfront⟩ := ih h
        refine ⟨blanks ++ c :: front, by simp, ?_⟩
        intro body hbody
        refine ⟨blanks ++ [c], front ++ body, by simp, ?_, hfront body hbody⟩
        rw [hclosing]
        exact .close hblanks bracket
      case isFalse =>
        rw [if_neg (by simp)] at h
        split at h
        case isFalse => simp at h
        case isTrue hcomma =>
          cases h
          refine ⟨blanks ++ [c], by simp, ?_⟩
          -- the comma belongs to the element that the loop goes on with
          rintro _ ⟨lead, value, _, rfl, hlead, hvalue, tail, rest', rfl, htail, hrest⟩
          refine ⟨blanks ++ c :: (lead ++ (value ++ tail)), rest', by simp, ?_, hrest⟩
          rw [hcomma]
          exact .next hblanks hlead hvalue htail

/-- What is passed over behind an opening bracket completes a value. -/
theorem exists_of_leave_false (h : leave (bracket :: brackets) false s = .ok (left, r)) :
    ∃ front, s = front ++ r ∧ ∀ body, Resumes left body → ∃ value rest,
      bracket.opening :: (front ++ body) = value ++ rest ∧ ValueText value
        ∧ Closes brackets rest := by
  rw [leave] at h
  split at h
  case h_1 => simp at h
  case h_2 c rest hskip =>
    obtain ⟨-, blanks, hblanks, rfl⟩ := skipSpace_eq_cons_iff.1 hskip
    split at h
    case isTrue hclosing =>
      obtain ⟨front, rfl, hfront⟩ := exists_of_leave h
      refine ⟨blanks ++ c :: front, by simp, ?_⟩
      intro body hbody
      refine ⟨bracket.opening :: (blanks ++ [c]), front ++ body, by simp, ?_, hfront body hbody⟩
      rw [hclosing]
      exact .empty blanks_nil hblanks bracket
    case isFalse =>
      rw [if_pos (by simp)] at h
      cases h
      refine ⟨blanks, rfl, ?_⟩
      rintro _ ⟨lead, value, _, rfl, hlead, hvalue, tail, rest', rfl, htail, hrest⟩
      refine ⟨bracket.opening :: (blanks ++ lead ++ (value ++ tail)), rest', by simp, ?_, hrest⟩
      exact .filled blanks_nil (hlead.append_blanks hblanks) hvalue htail

/-- The loop where it goes on inside the brackets that are left open. -/
def resume (turns : Nat) (left : List Bracket) (s : List Char) : Result Unit :=
  match left with
  | [] => .ok ((), s)
  | .list :: outer => skipWithin turns (.list :: outer) s
  | .object :: outer =>
    match skipKey s with
    | .error e => .error e
    | .ok ((), rest) => skipWithin turns (.object :: outer) rest

/-- The loop behind closing brackets. -/
def goOn (turns : Nat) (left : Result (List Bracket)) : Result Unit :=
  match left with
  | .error e => .error e
  | .ok (left, rest) => resume turns left rest

/-- One turn of the loop. -/
theorem skipWithin_succ (turns : Nat) (brackets : List Bracket) (s : List Char) :
    skipWithin (turns + 1) brackets s = match enter (skipSpace s) with
      | .error e => .error e
      | .ok (none, rest) => goOn turns (leave brackets true rest)
      | .ok (some bracket, rest) => goOn turns (leave (bracket :: brackets) false rest) := by
  rw [skipWithin]
  split
  case h_1 heq => rw [heq]
  case h_2 entered rest heq =>
    rw [heq]
    cases entered with
    | none =>
      dsimp only
      rcases leave brackets true rest with e | ⟨_ | ⟨_ | _, outer⟩, rest⟩ <;> rfl
    | some bracket =>
      dsimp only
      rcases leave (bracket :: brackets) false rest with e | ⟨_ | ⟨_ | _, outer⟩, rest⟩ <;> rfl

theorem ValueText.append_blanks {blanks value : List Char} (hblanks : Blanks blanks)
    (h : ValueText value) : ValueText (blanks ++ value) := by
  cases h with
  | scalar before scalar =>
    rw [← List.append_assoc]
    exact .scalar (hblanks.append before) scalar
  | empty before between bracket =>
    rw [← List.append_assoc]
    exact .empty (hblanks.append before) between bracket
  | filled before lead_mem value_mem tail_mem =>
    rw [← List.append_assoc]
    exact .filled (hblanks.append before) lead_mem value_mem tail_mem

/-- What the loop passes over in a number of turns is a value and what closes the open brackets. -/
def PassesOnly (turns : Nat) : Prop := ∀ {brackets : List Bracket} {s r : List Char} {a : Unit},
  skipWithin turns brackets s = .ok (a, r) →
    ∃ value rest, s = value ++ (rest ++ r) ∧ ValueText value ∧ Closes brackets rest

theorem exists_of_resume {turns : Nat} (hturns : PassesOnly turns) {a : Unit}
    (h : resume turns left s = .ok (a, r)) : ∃ body, s = body ++ r ∧ Resumes left body := by
  rw [resume.eq_def] at h
  split at h
  case h_1 =>
    cases h
    exact ⟨[], rfl, rfl⟩
  case h_2 outer =>
    obtain ⟨value, body, rfl, hvalue, hbody⟩ := hturns h
    exact ⟨value ++ body, by simp, [], value, body, rfl, blanks_nil, hvalue, hbody⟩
  case h_3 outer =>
    split at h
    case h_1 => cases h
    case h_2 after hkey =>
      obtain ⟨lead, rfl, hlead⟩ := exists_of_skipKey hkey
      obtain ⟨value, body, rfl, hvalue, hbody⟩ := hturns h
      exact ⟨lead ++ (value ++ body), by simp, lead, value, body, rfl, hlead, hvalue, hbody⟩

theorem exists_of_goOn {turns : Nat} (hturns : PassesOnly turns) {a : Unit}
    {result : Result (List Bracket)} (h : goOn turns result = .ok (a, r)) :
    ∃ left body, result = .ok (left, body ++ r) ∧ Resumes left body := by
  rw [goOn.eq_def] at h
  split at h
  case h_1 => cases h
  case h_2 left rest =>
    obtain ⟨body, rfl, hbody⟩ := exists_of_resume hturns h
    exact ⟨left, body, rfl, hbody⟩

/-- The induction is on the turns; each passes over a value without contents, or over an opening
bracket, and over the closing brackets behind it. -/
theorem passesOnly (turns : Nat) : PassesOnly turns := by
  induction turns with
  | zero =>
    intro brackets s r a h
    simp [skipWithin] at h
  | succ turns ih =>
    intro brackets s r a h
    obtain ⟨blanks, hblanks, hs⟩ := exists_blanks s
    rw [skipWithin_succ] at h
    split at h
    case h_1 => cases h
    case h_2 rest henter =>
      obtain ⟨-, scalar, hscalar, hmem⟩ | ⟨_, heq, -⟩ := exists_of_enter henter
      case inr => cases heq
      obtain ⟨left, body, hleave, hbody⟩ := exists_of_goOn ih h
      obtain ⟨front, hrest, hfront⟩ := exists_of_leave hleave
      refine ⟨blanks ++ scalar, front ++ body, ?_, .scalar hblanks hmem, hfront body hbody⟩
      rw [hs, hscalar, hrest]
      simp
    case h_3 bracket rest henter =>
      obtain ⟨heq, -⟩ | ⟨_, heq, hopening⟩ := exists_of_enter henter
      case inl => cases heq
      cases heq
      obtain ⟨left, body, hleave, hbody⟩ := exists_of_goOn ih h
      obtain ⟨front, hrest, hfront⟩ := exists_of_leave_false hleave
      obtain ⟨value, rest', hsplit, hvalue, hclosed⟩ := hfront body hbody
      refine ⟨blanks ++ value, rest', ?_, hvalue.append_blanks hblanks, hclosed⟩
      calc s = blanks ++ (bracket.opening :: (front ++ body) ++ r) := by
            rw [hs, hopening, hrest]; simp
        _ = blanks ++ value ++ (rest' ++ r) := by rw [hsplit]; simp

theorem exists_of_skipValue {a : Unit} (h : skipValue s = .ok (a, r)) :
    ∃ body, s = body ++ r ∧ ValueText body := by
  obtain ⟨value, rest, hs, hvalue, hrest⟩ := passesOnly _ h
  cases hrest
  exact ⟨value, hs, hvalue⟩

/-! ## All such texts are passed over -/

theorem ScalarText.exists_cons {body : List Char} (h : ScalarText body) :
    ∃ c rest, body = c :: rest ∧ isSpace c = Bool.false ∧ c ≠ ']' := by
  cases h with
  | null | true | false | string => exact ⟨_, _, rfl, rfl, by decide⟩
  | number h =>
    obtain ⟨literal, hliteral⟩ := h
    obtain ⟨c, rest, rfl, hc⟩ := hliteral.exists_cons
    refine ⟨c, rest, rfl, isSpace_of_begins hc, ?_⟩
    rintro rfl
    cases hc

theorem enter_append {body : List Char} (h : ScalarText body) (hr : EndsNumber r) :
    enter (body ++ r) = .ok (none, r) := by
  cases h with
  | null | true | false => rfl
  | @string body characters =>
    have hskip : skipCharacters (body ++ ['"'] ++ r) = .ok ((), r) :=
      (reads_skipCharacters ..).2 ⟨_, rfl, body, rfl, characters⟩
    rw [List.cons_append, enter, hskip]
    rfl
  | number number =>
    have hskip := skipNumber_append number hr
    obtain ⟨literal, hliteral⟩ := number
    obtain ⟨c, rest, rfl, hc⟩ := hliteral.exists_cons
    rw [List.cons_append] at hskip ⊢
    -- a number begins like no other value
    rw [enter.eq_def]
    split
    case h_1 heq => cases heq
    case h_2 c' rest' heq =>
      cases heq
      split
      case h_7 =>
        rw [if_pos hc, hskip]
        rfl
      all_goals cases hc

theorem skipKey_append {body : List Char} (h : KeyText body) (r : List Char) :
    skipKey (body ++ r) = .ok ((), r) := by
  obtain @⟨blanks, key, blanks', before, hkey, behind⟩ := h
  have hs : blanks ++ '"' :: (key ++ '"' :: (blanks' ++ [':'])) ++ r
      = blanks ++ '"' :: (key ++ ['"'] ++ (blanks' ++ ':' :: r)) := by simp
  have hskip : skipCharacters (key ++ ['"'] ++ (blanks' ++ ':' :: r))
      = .ok ((), blanks' ++ ':' :: r) :=
    (reads_skipCharacters ..).2 ⟨_, rfl, key, rfl, hkey⟩
  rw [hs, skipKey, skipSpace_append_cons before (by decide)]
  simp only [hskip]
  rw [skipSpace_append_cons behind (by decide)]
  rfl

theorem ValueText.exists_cons {value : List Char} (h : ValueText value) :
    ∃ blanks c rest, Blanks blanks ∧ value = blanks ++ c :: rest ∧ isSpace c = false
      ∧ c ≠ ']' := by
  cases h with
  | scalar before scalar =>
    obtain ⟨c, rest, rfl, hc⟩ := scalar.exists_cons
    exact ⟨_, c, rest, before, rfl, hc⟩
  | empty before _ bracket => exact ⟨_, _, _, before, rfl, by cases bracket <;> decide⟩
  | @filled bracket _ _ _ _ before => exact ⟨_, _, _, before, rfl, by cases bracket <;> decide⟩

/-- What follows an element ends a number. -/
theorem Passed.endsNumber {tail : List Char} (h : Passed (some bracket) tail) (r : List Char) :
    EndsNumber (tail ++ r) := by
  cases h with
  | close before =>
    rw [List.append_assoc]
    refine EndsNumber.append_blanks before (endsNumber_cons ?_ _)
    cases bracket <;> decide
  | next before =>
    rw [List.append_assoc]
    exact EndsNumber.append_blanks before (endsNumber_cons (by decide) _)

theorem leave_close {blanks : List Char} (h : Blanks blanks) (behind : Bool) (r : List Char) :
    leave (bracket :: brackets) behind (blanks ++ bracket.closing :: r)
      = leave brackets true r := by
  rw [leave, skipSpace_append_cons h (by cases bracket <;> decide)]
  dsimp only
  rw [if_pos rfl]

theorem leave_next {blanks : List Char} (h : Blanks blanks) (r : List Char) :
    leave (bracket :: brackets) true (blanks ++ ',' :: r) = .ok (bracket :: brackets, r) := by
  rw [leave, skipSpace_append_cons h (by decide)]
  dsimp only
  rw [if_neg (by cases bracket <;> decide), if_neg (by decide), if_pos rfl]

/-- In front of an element nothing is closed. -/
theorem leave_lead {lead value : List Char} (hlead : LeadText bracket lead)
    (hvalue : ValueText value) (r : List Char) :
    leave (bracket :: brackets) false (lead ++ (value ++ r))
      = .ok (bracket :: brackets, skipSpace (lead ++ (value ++ r))) := by
  have hfirst : ∃ c rest, skipSpace (lead ++ (value ++ r)) = c :: rest ∧ c ≠ bracket.closing := by
    cases bracket with
    | list =>
      obtain ⟨blanks, c, rest, hblanks, rfl, hc, hclosing⟩ := hvalue.exists_cons
      refine ⟨c, rest ++ r, ?_, hclosing⟩
      rw [skipSpace_append hlead, List.append_assoc, List.cons_append,
        skipSpace_append_cons hblanks hc]
    | object =>
      obtain @⟨blanks, key, blanks', before, _, _⟩ := hlead
      refine ⟨'"', key ++ '"' :: (blanks' ++ [':']) ++ (value ++ r), ?_, by decide⟩
      rw [List.append_assoc, List.cons_append, skipSpace_append_cons before (by decide)]
  obtain ⟨c, rest, hskip, hc⟩ := hfirst
  rw [leave, hskip]
  dsimp only
  rw [if_neg hc, if_pos (by simp)]

theorem skipWithin_blanks {blanks : List Char} (h : Blanks blanks) (turns : Nat)
    (brackets : List Bracket) (s : List Char) :
    skipWithin (turns + 1) brackets (blanks ++ s) = skipWithin (turns + 1) brackets s := by
  rw [skipWithin_succ, skipWithin_succ, skipSpace_append h]

theorem resume_lead {lead : List Char} (h : LeadText bracket lead) (turns : Nat) (s : List Char) :
    resume (turns + 1) (bracket :: brackets) (lead ++ s)
      = skipWithin (turns + 1) (bracket :: brackets) s := by
  cases bracket with
  | list => exact skipWithin_blanks h turns _ s
  | object => rw [resume, skipKey_append h]

theorem resume_skipSpace (turns : Nat) (s : List Char) :
    resume (turns + 1) (bracket :: brackets) (skipSpace s)
      = resume (turns + 1) (bracket :: brackets) s := by
  cases bracket with
  | list =>
    obtain ⟨blanks, hblanks, hs⟩ := exists_blanks s
    rw [resume, resume, ← skipWithin_blanks hblanks, ← hs]
  | object => rw [resume, resume, skipKey, skipKey, skipSpace_skipSpace]

theorem isSpace_opening (bracket : Bracket) : isSpace bracket.opening = false := by
  cases bracket with
  | list | object => rfl

theorem enter_opening (bracket : Bracket) (s : List Char) :
    enter (bracket.opening :: s) = .ok (some bracket, s) := by
  cases bracket with
  | list | object => rfl

/-- What the loop does with a text, given enough turns. A value is passed over, and the loop is then
behind it; what follows an element is passed over, and the loop is then behind the bracket. -/
def PassesOver : Option Bracket → List Char → Prop
  | none, value => ∀ {brackets r turns a}, EndsNumber r →
      (∀ turns', turns ≤ turns' → goOn turns' (leave brackets true r) = .ok a) →
      ∀ turns', turns + value.length ≤ turns' → skipWithin turns' brackets (value ++ r) = .ok a
  | some bracket, tail => ∀ {brackets r turns a},
      (∀ turns', turns ≤ turns' → goOn turns' (leave brackets true r) = .ok a) →
      ∀ turns', turns + tail.length ≤ turns' →
        goOn turns' (leave (bracket :: brackets) true (tail ++ r)) = .ok a

/-- The induction is on the grammar: a part takes no more turns than it has characters, and leaves
the others to what follows it. -/
theorem Passed.passesOver {part : Option Bracket} {body : List Char} (h : Passed part body) :
    PassesOver part body := by
  induction h with
  | @scalar blanks body before scalar =>
    intro brackets r turns a hr hafter turns' hturns
    obtain ⟨c, rest, rfl, hc, -⟩ := scalar.exists_cons
    obtain ⟨turns', rfl⟩ : ∃ k, turns' = k + 1 := ⟨turns' - 1, by simp at hturns; omega⟩
    rw [skipWithin_succ, List.append_assoc, List.cons_append,
      skipSpace_append_cons before hc, ← List.cons_append, enter_append scalar hr]
    exact hafter turns' (by simp at hturns; omega)
  | @empty blanks blanks' before between bracket =>
    intro brackets r turns a hr hafter turns' hturns
    obtain ⟨turns', rfl⟩ : ∃ k, turns' = k + 1 := ⟨turns' - 1, by simp at hturns; omega⟩
    have hbody : blanks ++ bracket.opening :: (blanks' ++ [bracket.closing]) ++ r
        = blanks ++ bracket.opening :: (blanks' ++ bracket.closing :: r) := by simp
    rw [hbody, skipWithin_succ, skipSpace_append_cons before (isSpace_opening bracket),
      enter_opening]
    dsimp only
    rw [leave_close between]
    exact hafter turns' (by simp at hturns; omega)
  | @filled bracket blanks lead value tail before hlead hvalue htail ihvalue ihtail =>
    intro brackets r turns a hr hafter turns' hturns
    -- one turn for the bracket and one for the value, which is not empty
    obtain ⟨turns', rfl⟩ : ∃ k, turns' = k + 2 := ⟨turns' - 2, by
      obtain ⟨_, _, _, _, rfl, _⟩ := ValueText.exists_cons hvalue
      simp at hturns
      omega⟩
    have hbody : blanks ++ bracket.opening :: (lead ++ (value ++ tail)) ++ r
        = blanks ++ bracket.opening :: (lead ++ (value ++ (tail ++ r))) := by simp
    rw [hbody, skipWithin_succ, skipSpace_append_cons before (isSpace_opening bracket),
      enter_opening]
    dsimp only
    rw [leave_lead hlead hvalue, goOn, resume_skipSpace, resume_lead hlead]
    exact ihvalue (htail.endsNumber r) (ihtail hafter) _ (by simp at hturns; omega)
  | @close blanks before bracket =>
    intro brackets r turns a hafter turns' hturns
    rw [List.append_assoc, List.singleton_append, leave_close before]
    exact hafter turns' (by simp at hturns; omega)
  | @next bracket blanks lead value tail before hlead hvalue htail ihvalue ihtail =>
    intro brackets r turns a hafter turns' hturns
    obtain ⟨turns', rfl⟩ : ∃ k, turns' = k + 1 := ⟨turns' - 1, by simp at hturns; omega⟩
    have hbody : blanks ++ ',' :: (lead ++ (value ++ tail)) ++ r
        = blanks ++ ',' :: (lead ++ (value ++ (tail ++ r))) := by simp
    rw [hbody, leave_next before, goOn, resume_lead hlead]
    exact ihvalue (htail.endsNumber r) (ihtail hafter) _ (by simp at hturns; omega)

/-- A value is passed over in front of what does not continue it. -/
theorem skipValue_append {value : List Char} (h : ValueText value) (hr : EndsNumber r) :
    skipValue (value ++ r) = .ok ((), r) := by
  have hbehind : ∀ turns, 0 ≤ turns → goOn turns (leave [] true r) = .ok ((), r) := fun _ _ => rfl
  exact h.passesOver hr hbehind _ (by rw [List.length_append]; omega)

end Reline.Json
