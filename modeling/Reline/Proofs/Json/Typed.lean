/-
  Reline.Proofs.Json.Typed

  Values of expected types, and the elements of lists and objects: what their
  readers accept.

  The elements of a list and the members of an object differ in what stands
  between the separators only, so one grammar describes both.
-/

import Reline.Json.Typed
import Reline.Proofs.Json.Skip

namespace Reline.Json

variable {α : Type} {s r : List Char}

/-! ## Values of the wrong type -/

@[simp] theorem failType_ne_ok {expected : String} {a : α} :
    failType expected s ≠ .ok a := by
  intro h
  rw [failType.eq_def] at h
  dsimp only at h
  split at h
  case h_1 => exact failAt_ne_ok h
  case h_2 =>
    split at h
    case h_5 | h_6 => exact failBefore_ne_ok h
    case h_7 =>
      split at h
      case isTrue =>
        obtain ⟨_, _, h⟩ := bind_eq_ok_iff.1 h
        exact failBefore_ne_ok h
      case isFalse => exact failAt_ne_ok h
    all_goals
      obtain ⟨_, _, h⟩ := bind_eq_ok_iff.1 h
      exact failBefore_ne_ok h

/-! ## Strings -/

/-- A string in quotes. -/
def QuotedText (body : List Char) (text : String) : Prop :=
  ∃ s, body = '"' :: (s ++ ['"']) ∧ Characters s text.toList

/-- A string, with blanks in front. -/
def StringText (body : List Char) (text : String) : Prop :=
  ∃ blanks quoted, body = blanks ++ quoted ∧ Blanks blanks ∧ QuotedText quoted text

theorem reads_readString : Reads readString StringText := by
  intro s text r
  constructor
  · intro h
    rw [readString.eq_def] at h
    split at h
    case h_1 rest hskip =>
      obtain ⟨-, blanks, hblanks, rfl⟩ := skipSpace_eq_cons_iff.1 hskip
      obtain ⟨_, rfl, body, rfl, hbody⟩ := (reads_readCharacters ..).1 h
      exact ⟨_, by simp, blanks, _, rfl, hblanks, body, rfl, hbody⟩
    case h_2 => exact absurd h failType_ne_ok
  · rintro ⟨_, rfl, blanks, _, rfl, hblanks, body, rfl, hbody⟩
    rw [readString, List.append_assoc, List.cons_append, skipSpace_append_cons hblanks (by decide)]
    exact (reads_readCharacters ..).2 ⟨_, rfl, body, rfl, hbody⟩

/-- Blanks in front of a string do not belong to what it stands for. -/
theorem StringText.exists_cons {body : List Char} {text : String} (h : StringText body text) :
    ∃ blanks rest, body = blanks ++ '"' :: rest ∧ Blanks blanks
      ∧ StringText ('"' :: rest) text := by
  obtain ⟨blanks, _, rfl, hblanks, s, rfl, hs⟩ := h
  exact ⟨blanks, s ++ ['"'], rfl, hblanks, [], _, rfl, blanks_nil, s, rfl, hs⟩

/-! ## Integers -/

/-- An integer of 32 bits. -/
def Int32Text (body : List Char) (n : Int) : Prop := IntegerText body n ∧ FitsInt32 n

theorem exists_of_readInt32 {n : Int} (h : readInt32 s = .ok (n, r)) :
    ∃ blanks body, s = blanks ++ (body ++ r) ∧ Blanks blanks ∧ Int32Text body n := by
  rw [readInt32] at h
  split at h
  case h_2 => simp at h
  case h_1 c rest hskip =>
    obtain ⟨-, blanks, hblanks, rfl⟩ := skipSpace_eq_cons_iff.1 hskip
    split at h
    case isFalse => simp at h
    case isTrue =>
      split at h
      case h_1 => cases h
      case h_3 => simp at h
      case h_2 m after hread =>
        split at h
        case isFalse => simp at h
        case isTrue hfits =>
          cases h
          obtain ⟨body, hs, hbody⟩ := exists_of_readNumber_integer hread
          exact ⟨blanks, body, by rw [hs], hblanks, hbody, hfits⟩

theorem readInt32_append {body : List Char} {n : Int} (h : Int32Text body n)
    (hr : EndsNumber r) : readInt32 (body ++ r) = .ok (n, r) := by
  obtain ⟨hbody, hfits⟩ := h
  have hread := readNumber_append hbody hfits hr
  obtain ⟨c, rest, rfl, hc⟩ := hbody.exists_cons
  rw [List.cons_append] at hread ⊢
  rw [readInt32, skipSpace_cons (isSpace_of_begins hc)]
  dsimp only
  rw [if_pos hc, hread]
  exact if_pos hfits

/-! ## Separators -/

/-- What stands in front of an element: a comma, unless it is the first. -/
def Separator (first : Bool) (body : List Char) : Prop :=
  if first then Blanks body
  else ∃ blanks blanks', body = blanks ++ ',' :: blanks' ∧ Blanks blanks ∧ Blanks blanks'

/-- The elements of a bracket with what separates and closes them. -/
inductive Items (Grammar : List Char → α → Prop) (closing : Char) :
    Bool → List Char → List α → Prop where
  | close {first : Bool} {blanks : List Char} (before : Blanks blanks) :
    Items Grammar closing first (blanks ++ [closing]) []
  | item {first : Bool} {separator body rest : List Char} {a : α} {elements : List α}
    (before : Separator first separator) (mem : Grammar body a)
    (rest_mem : Items Grammar closing false rest elements) :
    Items Grammar closing first (separator ++ (body ++ rest)) (a :: elements)

theorem Separator.append_blanks {first : Bool} {body blanks : List Char}
    (h : Separator first body) (hblanks : Blanks blanks) : Separator first (body ++ blanks) := by
  cases first with
  | true => exact Blanks.append h hblanks
  | false =>
    obtain ⟨before, behind, rfl, hbefore, hbehind⟩ := h
    exact ⟨before, behind ++ blanks, by simp, hbefore, hbehind.append hblanks⟩

/-- What comes next behind blanks, and behind a comma with blanks unless it comes first. -/
def Behind (first : Bool) (s r : List Char) : Prop :=
  if first then skipSpace s = r else ∃ rest, skipSpace s = ',' :: rest ∧ skipSpace rest = r

theorem behind_cons_iff {first : Bool} {c : Char} {rest : List Char} :
    Behind first s (c :: rest)
      ↔ isSpace c = false
        ∧ ∃ separator, Separator first separator ∧ s = separator ++ c :: rest := by
  cases first with
  | true => exact skipSpace_eq_cons_iff
  | false =>
    constructor
    · rintro ⟨behind, hcomma, hskip⟩
      obtain ⟨-, blanks, hblanks, rfl⟩ := skipSpace_eq_cons_iff.1 hcomma
      obtain ⟨hc, blanks', hblanks', rfl⟩ := skipSpace_eq_cons_iff.1 hskip
      exact ⟨hc, blanks ++ ',' :: blanks', ⟨blanks, blanks', rfl, hblanks, hblanks'⟩, by simp⟩
    · rintro ⟨hc, _, ⟨blanks, blanks', rfl, hblanks, hblanks'⟩, rfl⟩
      refine ⟨blanks' ++ c :: rest, ?_, skipSpace_append_cons hblanks' hc _⟩
      rw [List.append_assoc, List.cons_append, skipSpace_append_cons hblanks (by decide)]

/-- What follows an element ends a number. -/
theorem Items.endsNumber {Grammar : List Char → α → Prop} {closing : Char} {body : List Char}
    {elements : List α} (hclosing : closing = ']' ∨ closing = '}')
    (h : Items Grammar closing false body elements) (r : List Char) : EndsNumber (body ++ r) := by
  cases h with
  | close before =>
    rw [List.append_assoc]
    refine EndsNumber.append_blanks before (endsNumber_cons ?_ _)
    rcases hclosing with rfl | rfl <;> decide
  | item before =>
    obtain ⟨blanks, blanks', rfl, hblanks, -⟩ := before
    rw [List.append_assoc, List.append_assoc]
    exact EndsNumber.append_blanks hblanks (endsNumber_cons (by decide) _)

theorem Items.exists_append {Grammar : List Char → α → Prop} {closing : Char} {first : Bool}
    {body : List Char} {elements : List α} (h : Items Grammar closing first body elements) :
    ∃ front, body = front ++ [closing] := by
  induction h with
  | @close _ blanks => exact ⟨blanks, rfl⟩
  | @item _ separator body _ _ _ _ _ _ ih =>
    obtain ⟨front, rfl⟩ := ih
    exact ⟨separator ++ (body ++ front), by simp⟩

/-! ## Lists -/

/-- What the two answers to whether an element comes next say about the text. -/
theorem nextElement_cases {first more : Bool} (h : nextElement first s = .ok (more, r)) :
    (more = false ∧ ∃ rest, skipSpace s = ']' :: rest ∧ r = ']' :: rest)
      ∨ (more = true ∧ ∃ c rest, Behind first s (c :: rest) ∧ c ≠ ']' ∧ r = c :: rest) := by
  rw [nextElement.eq_def] at h
  split at h
  case h_1 => exact absurd h failAt_ne_ok
  case h_2 rest hskip =>
    cases h
    exact .inl ⟨rfl, rest, hskip, rfl⟩
  case h_3 c rest hclosing hskip =>
    split at h
    case isTrue hfirst =>
      cases h
      refine .inr ⟨rfl, c, rest, ?_, fun hc => hclosing hc, rfl⟩
      rwa [Behind, if_pos hfirst]
    case isFalse hfirst =>
      split at h
      case isFalse => exact absurd h failAt_ne_ok
      case isTrue hcomma =>
        split at h
        case h_1 => exact absurd h failAt_ne_ok
        case h_2 => exact absurd h failAt_ne_ok
        case h_3 hnil hclosing' =>
          cases h
          obtain ⟨c', rest', hskip'⟩ := List.exists_cons_of_ne_nil hnil
          refine .inr ⟨rfl, c', rest', ?_, ?_, hskip'⟩
          · rw [Behind, if_neg hfirst]
            exact ⟨rest, by rw [hskip, hcomma], hskip'⟩
          · rintro rfl
            exact hclosing' rest' hskip'

theorem nextElement_of_behind {first : Bool} {c : Char} {rest : List Char}
    (h : Behind first s (c :: rest)) (hclosing : c ≠ ']') :
    nextElement first s = .ok (true, c :: rest) := by
  rw [nextElement.eq_def]
  cases first with
  | true =>
    have hskip : skipSpace s = c :: rest := h
    rw [hskip]
    split
    case h_1 heq => cases heq
    case h_2 heq => cases heq; exact absurd rfl hclosing
    case h_3 heq => cases heq; rfl
  | false =>
    obtain ⟨behind, hcomma, hskip⟩ := h
    rw [hcomma]
    split
    case h_1 heq => cases heq
    case h_2 heq => cases heq
    case h_3 heq =>
      cases heq
      rw [if_neg (by decide), if_pos rfl, hskip]
      split
      case h_1 heq => cases heq
      case h_2 heq => cases heq; exact absurd rfl hclosing
      case h_3 heq => rfl

theorem nextElement_eq_false_iff {first : Bool} :
    nextElement first s = .ok (false, r) ↔
      ∃ blanks rest, s = blanks ++ r ∧ Blanks blanks ∧ r = ']' :: rest := by
  constructor
  · intro h
    rcases nextElement_cases h with ⟨-, rest, hskip, rfl⟩ | ⟨hmore, -⟩
    · obtain ⟨-, blanks, hblanks, rfl⟩ := skipSpace_eq_cons_iff.1 hskip
      exact ⟨blanks, rest, rfl, hblanks, rfl⟩
    · contradiction
  · rintro ⟨blanks, rest, rfl, hblanks, rfl⟩
    rw [nextElement, skipSpace_append_cons hblanks (by decide)]
    rfl

theorem nextElement_eq_true_iff {first : Bool} :
    nextElement first s = .ok (true, r) ↔ ∃ separator c rest, s = separator ++ r
      ∧ Separator first separator ∧ r = c :: rest ∧ isSpace c = false ∧ c ≠ ']' := by
  constructor
  · intro h
    rcases nextElement_cases h with ⟨hmore, -⟩ | ⟨-, c, rest, hbehind, hclosing, rfl⟩
    · contradiction
    · obtain ⟨hc, separator, hseparator, rfl⟩ := behind_cons_iff.1 hbehind
      exact ⟨separator, c, rest, rfl, hseparator, rfl, hc, hclosing⟩
  · rintro ⟨separator, c, rest, rfl, hseparator, rfl, hc, hclosing⟩
    exact nextElement_of_behind (behind_cons_iff.2 ⟨hc, separator, hseparator, rfl⟩) hclosing

/-- A reader of one character reads it behind blanks. -/
theorem reads_of_skipSpace {read : List Char → Result Unit} {c : Char} (hspace : isSpace c = false)
    (hread : ∀ s r, read s = .ok ((), r) ↔ skipSpace s = c :: r) :
    Reads read fun body _ => ∃ blanks, body = blanks ++ [c] ∧ Blanks blanks := by
  intro s _ r
  rw [hread, skipSpace_eq_cons_iff]
  constructor
  · rintro ⟨-, blanks, hblanks, rfl⟩
    exact ⟨_, by simp, blanks, rfl, hblanks⟩
  · rintro ⟨_, rfl, blanks, rfl, hblanks⟩
    exact ⟨hspace, blanks, hblanks, by simp⟩

/-- The closing bracket of a list. -/
theorem reads_closeList :
    Reads closeList fun body _ => ∃ blanks, body = blanks ++ [']'] ∧ Blanks blanks := by
  refine reads_of_skipSpace (by decide) fun s r => ⟨fun h => ?_, fun h => ?_⟩
  · rw [closeList.eq_def] at h
    split at h
    case h_1 => simp at h
    case h_2 rest hskip =>
      cases h
      exact hskip
    case h_3 => split at h <;> simp at h
    case h_4 => simp at h
  · rw [closeList, h]
    rfl

theorem closeList_cons (r : List Char) : closeList (']' :: r) = .ok ((), r) :=
  (reads_closeList ..).2 ⟨[']'], rfl, [], rfl, blanks_nil⟩

/-- The loop over a list: an element is the first exactly if none was found before it. -/
theorem exists_of_integersOnto {turns : Nat} {onto back : List Int}
    (h : integersOnto turns onto s = .ok (back, r)) :
    ∃ body rest elements, s = body ++ rest ∧ r = ']' :: rest
      ∧ Items Int32Text ']' onto.isEmpty body elements ∧ back = elements.reverse ++ onto := by
  induction turns generalizing onto s with
  | zero => simp [integersOnto] at h
  | succ turns ih =>
    rw [integersOnto] at h
    split at h
    case h_1 => cases h
    case h_2 rest hnext =>
      cases h
      obtain ⟨blanks, rest, rfl, hblanks, rfl⟩ := nextElement_eq_false_iff.1 hnext
      exact ⟨blanks ++ [']'], rest, [], by simp, rfl, .close hblanks, rfl⟩
    case h_3 rest hnext =>
      obtain ⟨separator, _, _, rfl, hseparator, -⟩ := nextElement_eq_true_iff.1 hnext
      split at h
      case h_1 => cases h
      case h_2 n after hread =>
        obtain ⟨blanks, body, rfl, hblanks, hbody⟩ := exists_of_readInt32 hread
        obtain ⟨items, rest, elements, rfl, rfl, hitems, rfl⟩ := ih h
        -- blanks in front of the element count as part of what separates it
        refine ⟨separator ++ blanks ++ (body ++ items), rest, n :: elements, by simp, rfl, ?_,
          by simp⟩
        exact .item (hseparator.append_blanks hblanks) hbody hitems

theorem integersOnto_append {first : Bool} {body : List Char} {elements : List Int}
    (h : Items Int32Text ']' first body elements) {onto : List Int} (hfirst : onto.isEmpty = first)
    {turns : Nat} (hturns : body.length < turns) :
    integersOnto turns onto (body ++ r) = .ok (elements.reverse ++ onto, ']' :: r) := by
  induction h generalizing onto turns with
  | @close first blanks before =>
    obtain ⟨turns, rfl⟩ : ∃ k, turns = k + 1 := ⟨turns - 1, by omega⟩
    have hnext : nextElement onto.isEmpty (blanks ++ ']' :: r) = .ok (false, ']' :: r) :=
      nextElement_eq_false_iff.2 ⟨blanks, r, rfl, before, rfl⟩
    rw [List.append_assoc, List.singleton_append, integersOnto, hnext]
    rfl
  | @item first separator body rest n elements before mem rest_mem ih =>
    obtain ⟨turns, rfl⟩ : ∃ k, turns = k + 1 := ⟨turns - 1, by omega⟩
    subst hfirst
    -- an element has a character, so the turns suffice for the rest
    obtain ⟨c, body', hbody, hc⟩ := mem.1.exists_cons
    have hlength : rest.length < turns := by
      simp [hbody] at hturns
      omega
    have hnext : nextElement onto.isEmpty (separator ++ (body ++ (rest ++ r)))
        = .ok (true, body ++ (rest ++ r)) := by
      refine nextElement_eq_true_iff.2
        ⟨separator, c, body' ++ (rest ++ r), rfl, before, ?_, isSpace_of_begins hc, ?_⟩
      · rw [hbody, List.cons_append]
      · rintro rfl
        cases hc
    rw [List.append_assoc, List.append_assoc, integersOnto, hnext]
    dsimp only
    rw [readInt32_append mem (rest_mem.endsNumber (.inl rfl) r)]
    dsimp only
    rw [ih rfl hlength]
    simp

/-- A list of integers, with blanks in front. -/
def IntegersText (body : List Char) (elements : List Int) : Prop :=
  ∃ blanks items, body = blanks ++ '[' :: items ∧ Blanks blanks
    ∧ Items Int32Text ']' true items elements

theorem reads_readIntegers : Reads readIntegers IntegersText := by
  intro s elements r
  constructor
  · intro h
    rw [readIntegers.eq_def] at h
    split at h
    case h_2 => exact absurd h failType_ne_ok
    case h_1 rest hskip =>
      obtain ⟨-, blanks, hblanks, rfl⟩ := skipSpace_eq_cons_iff.1 hskip
      split at h
      case h_1 => cases h
      case h_2 back after hread =>
        obtain ⟨⟨_, behind⟩, hclose, heq⟩ := map_eq_ok_iff.1 h
        cases heq
        obtain ⟨items, rest, elements, rfl, rfl, hitems, rfl⟩ := exists_of_integersOnto hread
        rw [closeList_cons] at hclose
        cases hclose
        refine ⟨blanks ++ '[' :: items, by simp, blanks, items, rfl, hblanks, ?_⟩
        simpa using hitems
  · rintro ⟨_, rfl, blanks, items, rfl, hblanks, hitems⟩
    have hread : integersOnto ((items ++ r).length + 1) [] (items ++ r)
        = .ok (elements.reverse ++ [], ']' :: r) :=
      integersOnto_append hitems rfl (by rw [List.length_append]; omega)
    rw [readIntegers, List.append_assoc, List.cons_append,
      skipSpace_append_cons hblanks (by decide)]
    simp only [hread, closeList_cons]
    simp [Except.map]

/-- A list of integers or `null`, with blanks in front. -/
inductive MappingText : List Char → Option (List Int) → Prop where
  | null {blanks : List Char} (before : Blanks blanks) :
    MappingText (blanks ++ ['n', 'u', 'l', 'l']) none
  | integers {body : List Char} {elements : List Int} (integers : IntegersText body elements) :
    MappingText body (some elements)

theorem reads_readOptional_readIntegers :
    Reads (readOptional readIntegers) MappingText := by
  intro s mapping r
  constructor
  · intro h
    rw [readOptional.eq_def] at h
    split at h
    case h_1 rest hskip =>
      obtain ⟨-, blanks, hblanks, rfl⟩ := skipSpace_eq_cons_iff.1 hskip
      obtain ⟨⟨_, after⟩, hread, heq⟩ := map_eq_ok_iff.1 h
      obtain ⟨_, rfl, rfl⟩ := (reads_readLetters ..).1 hread
      cases heq
      exact ⟨_, by simp, .null hblanks⟩
    case h_2 =>
      obtain ⟨⟨elements, after⟩, hread, heq⟩ := map_eq_ok_iff.1 h
      cases heq
      obtain ⟨_, hs, blanks', items, rfl, hblanks', hitems⟩ := (reads_readIntegers ..).1 hread
      obtain ⟨blanks, hblanks, hsplit⟩ := exists_blanks s
      refine ⟨blanks ++ blanks' ++ '[' :: items, ?_, .integers ?_⟩
      · rw [hsplit, hs]
        simp
      · exact ⟨blanks ++ blanks', items, rfl, hblanks.append hblanks', hitems⟩
  · rintro ⟨body, rfl, hmapping⟩
    cases hmapping with
    | null before =>
      have hread : readLetters ['u', 'l', 'l'] ('u' :: 'l' :: 'l' :: r) = .ok ((), r) :=
        (reads_readLetters ..).2 ⟨['u', 'l', 'l'], rfl, rfl⟩
      rw [readOptional, List.append_assoc, List.cons_append,
        skipSpace_append_cons before (by decide)]
      simp only [List.cons_append, List.nil_append, hread]
      rfl
    | @integers body elements integers =>
      obtain ⟨blanks, items, rfl, hblanks, hitems⟩ := integers
      have hread : readIntegers ('[' :: (items ++ r)) = .ok (elements, r) :=
        (reads_readIntegers ..).2 ⟨'[' :: items, rfl, [], items, rfl, blanks_nil, hitems⟩
      rw [readOptional.eq_def, List.append_assoc, List.cons_append,
        skipSpace_append_cons hblanks (by decide)]
      split
      case h_1 heq => cases heq
      case h_2 =>
        rw [hread]
        rfl

/-! ## Objects -/

/-- What the two answers to whether a key comes next say about the text. -/
theorem nextKey_cases {first : Bool} {key? : Option String}
    (h : nextKey first s = .ok (key?, r)) :
    (key? = none ∧ ∃ rest, skipSpace s = '}' :: rest ∧ r = '}' :: rest)
      ∨ ∃ key rest, key? = some key ∧ Behind first s ('"' :: rest)
        ∧ readCharacters rest = .ok (key, r) := by
  -- a key that is read is never missing
  have hkey {rest : List Char}
      (h : (readCharacters rest).map (fun read => (some read.1, read.2)) = .ok (key?, r)) :
      ∃ key, key? = some key ∧ readCharacters rest = .ok (key, r) := by
    obtain ⟨⟨key, after⟩, hread, heq⟩ := map_eq_ok_iff.1 h
    cases heq
    exact ⟨key, rfl, hread⟩
  rw [nextKey.eq_def] at h
  dsimp only at h
  split at h
  case h_1 => exact absurd h failAt_ne_ok
  case h_2 rest hskip =>
    cases h
    exact .inl ⟨rfl, rest, hskip, rfl⟩
  case h_3 c rest hclosing hskip =>
    refine .inr ?_
    split at h
    case isTrue hfirst =>
      split at h
      case isFalse => exact absurd h failAt_ne_ok
      case isTrue hquote =>
        obtain ⟨key, rfl, hread⟩ := hkey h
        refine ⟨key, rest, rfl, ?_, hread⟩
        rwa [Behind, if_pos hfirst, ← hquote]
    case isFalse hfirst =>
      split at h
      case isFalse => exact absurd h failAt_ne_ok
      case isTrue hcomma =>
        split at h
        case h_2 rest' hskip' =>
          obtain ⟨key, rfl, hread⟩ := hkey h
          refine ⟨key, rest', rfl, ?_, hread⟩
          rw [Behind, if_neg hfirst]
          exact ⟨rest, by rw [hskip, hcomma], hskip'⟩
        all_goals exact absurd h failAt_ne_ok

theorem nextKey_of_behind {first : Bool} {key : String} {rest : List Char}
    (h : Behind first s ('"' :: rest)) (hread : readCharacters rest = .ok (key, r)) :
    nextKey first s = .ok (some key, r) := by
  rw [nextKey.eq_def]
  cases first with
  | true =>
    have hskip : skipSpace s = '"' :: rest := h
    rw [hskip]
    exact map_eq_ok_iff.2 ⟨_, hread, rfl⟩
  | false =>
    obtain ⟨behind, hcomma, hskip⟩ := h
    rw [hcomma]
    split
    case h_1 heq => cases heq
    case h_2 heq => cases heq
    case h_3 heq =>
      cases heq
      rw [if_neg (by decide), if_pos rfl, hskip]
      exact map_eq_ok_iff.2 ⟨_, hread, rfl⟩

theorem nextKey_eq_none_iff {first : Bool} :
    nextKey first s = .ok (none, r) ↔
      ∃ blanks rest, s = blanks ++ r ∧ Blanks blanks ∧ r = '}' :: rest := by
  constructor
  · intro h
    rcases nextKey_cases h with ⟨-, rest, hskip, rfl⟩ | ⟨_, _, hkey, -⟩
    · obtain ⟨-, blanks, hblanks, rfl⟩ := skipSpace_eq_cons_iff.1 hskip
      exact ⟨blanks, rest, rfl, hblanks, rfl⟩
    · contradiction
  · rintro ⟨blanks, rest, rfl, hblanks, rfl⟩
    rw [nextKey, skipSpace_append_cons hblanks (by decide)]
    rfl

theorem nextKey_eq_some_iff {first : Bool} {key : String} :
    nextKey first s = .ok (some key, r) ↔ ∃ separator quoted, s = separator ++ (quoted ++ r)
      ∧ Separator first separator ∧ QuotedText quoted key := by
  constructor
  · intro h
    rcases nextKey_cases h with ⟨hkey, -⟩ | ⟨_, rest, hkey, hbehind, hread⟩
    · contradiction
    · cases hkey
      obtain ⟨-, separator, hseparator, rfl⟩ := behind_cons_iff.1 hbehind
      obtain ⟨_, rfl, body, rfl, hbody⟩ := (reads_readCharacters ..).1 hread
      exact ⟨separator, '"' :: (body ++ ['"']), rfl, hseparator, body, rfl, hbody⟩
  · rintro ⟨separator, _, rfl, hseparator, body, rfl, hbody⟩
    exact nextKey_of_behind (behind_cons_iff.2 ⟨by decide, separator, hseparator, rfl⟩)
      ((reads_readCharacters ..).2 ⟨_, rfl, body, rfl, hbody⟩)

/-- The colon behind a key. -/
theorem reads_readColon :
    Reads readColon fun body _ => ∃ blanks, body = blanks ++ [':'] ∧ Blanks blanks := by
  refine reads_of_skipSpace (by decide) fun s r => ⟨fun h => ?_, fun h => ?_⟩
  · rw [readColon.eq_def] at h
    split at h
    case h_1 => simp at h
    case h_2 rest hskip =>
      cases h
      exact hskip
    case h_3 => simp at h
  · rw [readColon, h]
    rfl

/-! ## The end of the text -/

theorem readEnd_eq_ok_iff : readEnd s = .ok () ↔ Blanks s := by
  rw [readEnd.eq_def, ← skipSpace_eq_nil_iff]
  split
  case h_1 hskip => simp [hskip]
  case h_2 hskip => exact ⟨fun h => absurd h failAt_ne_ok, fun h => absurd h hskip⟩

end Reline.Json
