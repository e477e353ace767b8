/-
  Reline.Proofs.Json.Text

  Blanks, literals and strings of JSON text: what their readers accept.

  What a reader accepts is said by a relation between a text and what it stands
  for. A reader of the kind considered here stops where that text stops, whatever
  follows, so one equivalence says both that it takes such a text and that it
  takes nothing else.
-/

import Reline.Json.Text
import Reline.Proofs.Except

namespace Reline.Json

variable {α : Type} {s r : List Char}

/-- Whether a reader takes exactly the texts of a grammar off the front of what it is given. -/
def Reads (read : List Char → Result α) (Grammar : List Char → α → Prop) : Prop :=
  ∀ s a r, read s = .ok (a, r) ↔ ∃ body, s = body ++ r ∧ Grammar body a

/-- What a value is turned into does not change which texts are taken. -/
theorem Reads.map_eq_ok_iff {β : Type} {read : List Char → Result α}
    {Grammar : List Char → α → Prop} (h : Reads read Grammar) {f : α → β} {b : β} :
    ((read s).map fun (a, rest) => (f a, rest)) = .ok (b, r) ↔
      ∃ body a, s = body ++ r ∧ Grammar body a ∧ b = f a := by
  rw [Reline.map_eq_ok_iff]
  constructor
  · rintro ⟨⟨a, after⟩, hread, heq⟩
    cases heq
    obtain ⟨body, hs, hbody⟩ := (h ..).1 hread
    exact ⟨body, a, hs, hbody, rfl⟩
  · rintro ⟨body, a, hs, hbody, rfl⟩
    exact ⟨(a, r), (h ..).2 ⟨body, hs, hbody⟩, rfl⟩

/-! ## Faults -/

@[simp] theorem failAt_ne_ok {cause : Cause} {a : α} :
    (failAt cause s : Except Error α) ≠ .ok a := nofun

@[simp] theorem failBefore_ne_ok {cause : Cause} {a : α} :
    (failBefore cause s : Except Error α) ≠ .ok a := nofun

theorem failHex_ne_ok {a : α} : (failHex s : Except Error α) ≠ .ok a := by
  rw [failHex]
  split <;> simp

/-! ## Blanks -/

/-- Whether a text is nothing but blanks. -/
def Blanks (s : List Char) : Prop := ∀ c ∈ s, isSpace c = true

theorem blanks_nil : Blanks [] := by
  simp [Blanks]

theorem Blanks.append {t : List Char} (h : Blanks s) (h' : Blanks t) : Blanks (s ++ t) := by
  intro c hc
  rcases List.mem_append.1 hc with hc | hc
  · exact h c hc
  · exact h' c hc

/-- Leading blanks are passed over. -/
theorem skipSpace_append {blanks : List Char} (h : Blanks blanks) (s : List Char) :
    skipSpace (blanks ++ s) = skipSpace s := by
  induction blanks with
  | nil => rfl
  | cons c blanks ih =>
    have hc : isSpace c = true := h c (List.mem_cons_self ..)
    have hrest : Blanks blanks := fun c hc => h c (List.mem_cons_of_mem _ hc)
    rw [List.cons_append, skipSpace, if_pos hc, ih hrest]

theorem skipSpace_cons {c : Char} (h : isSpace c = false) (s : List Char) :
    skipSpace (c :: s) = c :: s := by
  rw [skipSpace, if_neg (by simp [h])]

theorem skipSpace_append_cons {blanks : List Char} {c : Char} (h : Blanks blanks)
    (hc : isSpace c = false) (s : List Char) : skipSpace (blanks ++ c :: s) = c :: s := by
  rw [skipSpace_append h, skipSpace_cons hc]

/-- Nothing but blanks is passed over. -/
theorem exists_blanks (s : List Char) : ∃ blanks, Blanks blanks ∧ s = blanks ++ skipSpace s := by
  induction s with
  | nil => exact ⟨[], blanks_nil, rfl⟩
  | cons c s ih =>
    by_cases hc : isSpace c = true
    · obtain ⟨blanks, hblanks, hs⟩ := ih
      refine ⟨c :: blanks, List.forall_mem_cons.2 ⟨hc, hblanks⟩, ?_⟩
      rw [skipSpace, if_pos hc, List.cons_append, ← hs]
    · exact ⟨[], blanks_nil, by rw [skipSpace, if_neg hc]; rfl⟩

/-- What stands behind the blanks is no blank. -/
theorem isSpace_of_skipSpace {c : Char} (h : skipSpace s = c :: r) : isSpace c = false := by
  induction s with
  | nil => cases h
  | cons first s ih =>
    rw [skipSpace] at h
    split at h
    case isTrue => exact ih h
    case isFalse hfirst =>
      cases h
      simpa using hfirst

theorem skipSpace_eq_cons_iff {c : Char} :
    skipSpace s = c :: r ↔ isSpace c = false ∧ ∃ blanks, Blanks blanks ∧ s = blanks ++ c :: r := by
  constructor
  · intro h
    obtain ⟨blanks, hblanks, hs⟩ := exists_blanks s
    rw [h] at hs
    exact ⟨isSpace_of_skipSpace h, blanks, hblanks, hs⟩
  · rintro ⟨hc, blanks, hblanks, rfl⟩
    exact skipSpace_append_cons hblanks hc r

theorem skipSpace_eq_nil_iff : skipSpace s = [] ↔ Blanks s := by
  constructor
  · intro h
    obtain ⟨blanks, hblanks, hs⟩ := exists_blanks s
    rw [h, List.append_nil] at hs
    exact hs ▸ hblanks
  · intro h
    have hskip := skipSpace_append h []
    rwa [List.append_nil] at hskip

@[simp] theorem skipSpace_skipSpace : skipSpace (skipSpace s) = skipSpace s := by
  cases hs : skipSpace s with
  | nil => rfl
  | cons c r => exact skipSpace_cons (isSpace_of_skipSpace hs) r

/-! ## Literals -/

theorem reads_readLetters (letters : List Char) :
    Reads (readLetters letters) fun body _ => body = letters := by
  intro s a r
  induction letters generalizing s with
  | nil => simp [readLetters, eq_comm]
  | cons letter letters ih =>
    cases s with
    | nil => simp [readLetters]
    | cons c s =>
      rw [readLetters]
      split
      case isTrue hc =>
        rw [ih]
        simp [hc]
      case isFalse hc => simp [hc]

/-! ## Escapes -/

/-- Four hexadecimal digits and their number. -/
def HexWord (body : List Char) (n : Nat) : Prop :=
  ∃ a b c d, body = [a, b, c, d] ∧ hexWord? a b c d = some n

theorem reads_readHex : Reads readHex HexWord := by
  intro s n r
  constructor
  · intro h
    rw [readHex.eq_def] at h
    split at h
    case h_1 a b c d rest =>
      split at h
      case h_1 m hword =>
        cases h
        exact ⟨[a, b, c, d], rfl, a, b, c, d, rfl, hword⟩
      case h_2 => exact absurd h failHex_ne_ok
    case h_2 => exact absurd h failHex_ne_ok
  · rintro ⟨body, rfl, a, b, c, d, rfl, hword⟩
    rw [List.cons_append, List.cons_append, List.cons_append, List.cons_append, List.nil_append,
      readHex, hword]

/-- The escapes of one letter, and what they stand for. -/
def shortEscapes : List (Char × Char) :=
  [('"', '"'), ('\\', '\\'), ('/', '/'), ('b', '\x08'), ('f', '\x0c'), ('n', '\n'), ('r', '\r'),
    ('t', '\t')]

/-- The character of a surrogate pair. -/
def pairedChar (leading trailing : Nat) : Char :=
  Char.ofNat (0x10000 + (leading - 0xD800) * 0x400 + (trailing - 0xDC00))

/-- What an escape stands for, behind its backslash. -/
inductive Escape : List Char → Char → Prop where
  /-- One letter. -/
  | short {letter c : Char} (listed : (letter, c) ∈ shortEscapes) : Escape [letter] c
  /-- The number of a character. -/
  | unit {body : List Char} {n : Nat} (word : HexWord body n) (leading : isLeading n = false)
    (trailing : isTrailing n = false) : Escape ('u' :: body) (Char.ofNat n)
  /-- A surrogate pair. -/
  | pair {body body' : List Char} {n n' : Nat} (word : HexWord body n) (word' : HexWord body' n')
    (leading : isLeading n = true) (trailing : isTrailing n' = true) :
    Escape ('u' :: (body ++ '\\' :: 'u' :: body')) (pairedChar n n')

theorem isTrailing_of_isLeading {n : Nat} (h : isLeading n = true) : isTrailing n = false := by
  simp [isLeading, isTrailing] at h ⊢
  omega

theorem reads_readTrailing (leading : Nat) :
    Reads (readTrailing leading) fun body c => ∃ word n, body = '\\' :: 'u' :: word
      ∧ HexWord word n ∧ isTrailing n = true ∧ c = pairedChar leading n := by
  intro s c r
  constructor
  · intro h
    rw [readTrailing.eq_def] at h
    split at h
    case h_1 rest =>
      split at h
      case h_1 => cases h
      case h_2 n after hhex =>
        obtain ⟨word, rfl, hword⟩ := (reads_readHex ..).1 hhex
        split at h
        case isTrue htrailing =>
          rw [Except.ok.injEq, Prod.mk.injEq] at h
          obtain ⟨hc, rfl⟩ := h
          exact ⟨_, rfl, word, n, rfl, hword, htrailing, hc.symm⟩
        case isFalse => simp at h
    all_goals simp at h
  · rintro ⟨body, rfl, word, n, rfl, hword, htrailing, hc⟩
    have hhex : readHex (word ++ r) = .ok (n, r) := (reads_readHex ..).2 ⟨word, rfl, hword⟩
    rw [List.cons_append, List.cons_append, readTrailing, hhex, hc]
    dsimp only
    rw [if_pos htrailing, pairedChar]

/-- Behind the letter of a number stands one code unit, or the first of two. -/
theorem exists_of_readEscape_u {rest : List Char} {c : Char}
    (h : readEscape ('u' :: rest) = .ok (c, r)) :
    ∃ body, 'u' :: rest = body ++ r ∧ Escape body c := by
  rw [readEscape] at h
  split at h
  case h_1 => cases h
  case h_2 n after hhex =>
    obtain ⟨word, rfl, hword⟩ := (reads_readHex ..).1 hhex
    split at h
    case isTrue => simp at h
    case isFalse htrailing =>
      split at h
      case isTrue hleading =>
        obtain ⟨_, rfl, word', n', rfl, hword', htrailing', hc⟩ := (reads_readTrailing ..).1 h
        refine ⟨'u' :: (word ++ '\\' :: 'u' :: word'), by simp, ?_⟩
        rw [hc]
        exact .pair hword hword' hleading htrailing'
      case isFalse hleading =>
        cases h
        refine ⟨'u' :: word, by simp, ?_⟩
        exact .unit hword (by simpa using hleading) (by simpa using htrailing)

theorem reads_readEscape : Reads readEscape Escape := by
  intro s c r
  constructor
  · intro h
    cases s with
    | nil => simp [readEscape] at h
    | cons first rest =>
      -- an escape of a number has digits behind it, all others are one character
      by_cases hnumber : first = 'u'
      · subst hnumber
        exact exists_of_readEscape_u h
      · rw [readEscape.eq_def] at h
        dsimp only at h
        split at h
        case h_9 => exact absurd rfl hnumber
        case h_10 => simp at h
        all_goals
          cases h
          exact ⟨[_], rfl, .short (by simp [shortEscapes])⟩
  · rintro ⟨body, rfl, hescape⟩
    cases hescape with
    | short listed =>
      simp only [shortEscapes, List.mem_cons, Prod.mk.injEq, List.not_mem_nil, or_false] at listed
      rcases listed with ⟨rfl, rfl⟩ | ⟨rfl, rfl⟩ | ⟨rfl, rfl⟩ | ⟨rfl, rfl⟩ | ⟨rfl, rfl⟩
        | ⟨rfl, rfl⟩ | ⟨rfl, rfl⟩ | ⟨rfl, rfl⟩ <;> rfl
    | @unit word n hword hleading htrailing =>
      have hhex : readHex (word ++ r) = .ok (n, r) := (reads_readHex ..).2 ⟨word, rfl, hword⟩
      simp [readEscape, hhex, hleading, htrailing]
    | @pair word word' n n' hword hword' hleading htrailing =>
      have hhex : readHex (word ++ '\\' :: 'u' :: (word' ++ r)) = .ok (n, _) :=
        (reads_readHex ..).2 ⟨word, rfl, hword⟩
      have hpair := (reads_readTrailing n _ _ r).2
        ⟨_, rfl, word', n', rfl, hword', htrailing, rfl⟩
      simp [readEscape, hhex, hleading, isTrailing_of_isLeading hleading]
      exact hpair

/-! ## Strings -/

/-- The characters of a string as they are written between its quotes. -/
inductive Characters : List Char → List Char → Prop where
  | nil : Characters [] []
  /-- A character that stands for itself. -/
  | plain {c : Char} {s t : List Char} (quote : c ≠ '"') (backslash : c ≠ '\\')
    (control : ¬ c < ' ') (rest : Characters s t) : Characters (c :: s) (c :: t)
  /-- A character that an escape stands for. -/
  | escaped {e : List Char} {c : Char} {s t : List Char} (escape : Escape e c)
    (rest : Characters s t) : Characters ('\\' :: (e ++ s)) (c :: t)

/-- The characters found so far stand in reverse in front of the others. -/
theorem exists_of_charactersOnto {onto back : List Char}
    (h : charactersOnto onto s = .ok (back, r)) :
    ∃ body t, s = body ++ '"' :: r ∧ Characters body t ∧ back = t.reverse ++ onto := by
  fun_induction charactersOnto onto s with
  | case1 => simp at h
  | case2 onto rest =>
    rw [Except.ok.injEq, Prod.mk.injEq] at h
    obtain ⟨rfl, rfl⟩ := h
    exact ⟨[], [], rfl, .nil, rfl⟩
  | case3 onto rest c rest' hread _ _ ih =>
    obtain ⟨e, rfl, hescape⟩ := (reads_readEscape ..).1 hread
    obtain ⟨body, t, rfl, hbody, rfl⟩ := ih h
    exact ⟨'\\' :: (e ++ body), c :: t, by simp, .escaped hescape hbody, by simp⟩
  -- an escape that is read leaves a shorter text
  | case4 => contradiction
  | case5 => simp at h
  | case6 onto c rest hquote hbackslash hcontrol ih =>
    obtain ⟨body, t, rfl, hbody, rfl⟩ := ih h
    exact ⟨c :: body, c :: t, rfl, .plain hquote hbackslash hcontrol hbody, by simp⟩

theorem charactersOnto_append {body t : List Char} (h : Characters body t) (onto r : List Char) :
    charactersOnto onto (body ++ '"' :: r) = .ok (t.reverse ++ onto, r) := by
  induction h generalizing onto with
  | nil =>
    rw [List.nil_append, charactersOnto.eq_def]
    rfl
  | @plain c s t quote backslash control rest ih =>
    rw [List.cons_append, charactersOnto.eq_def]
    dsimp only
    rw [if_neg quote, if_neg backslash, if_neg control, ih]
    simp
  | @escaped e c s t escape rest ih =>
    have hread : readEscape (e ++ (s ++ '"' :: r)) = .ok (c, s ++ '"' :: r) :=
      (reads_readEscape ..).2 ⟨e, rfl, escape⟩
    rw [List.cons_append, List.append_assoc, charactersOnto.eq_def]
    dsimp only
    rw [if_neg (by decide), if_pos rfl]
    split
    case h_1 c' rest' hread' =>
      rw [hread] at hread'
      cases hread'
      rw [ih]
      simp
    case h_2 e' hfault =>
      rw [hread] at hfault
      cases hfault

/-- A string is read up to its closing quote. -/
theorem reads_readCharacters :
    Reads readCharacters fun body text => ∃ s, body = s ++ ['"'] ∧ Characters s text.toList := by
  intro s text r
  rw [readCharacters]
  constructor
  · intro h
    cases hread : charactersOnto [] s with
    | error e =>
      rw [hread] at h
      cases h
    | ok found =>
      obtain ⟨back, rest⟩ := found
      rw [hread] at h
      cases h
      obtain ⟨body, t, rfl, hbody, rfl⟩ := exists_of_charactersOnto hread
      exact ⟨body ++ ['"'], by simp, body, rfl, by simpa using hbody⟩
  · rintro ⟨body, rfl, s, rfl, hbody⟩
    rw [List.append_assoc, List.singleton_append, charactersOnto_append hbody]
    simp [Except.map]

/-! ## Strings that are passed over -/

/-- An escape that is passed over: its number need not be that of a character. -/
inductive PassedEscape : List Char → Prop where
  /-- One letter. -/
  | short {letter : Char} (listed : letter ∈ shortEscapes.map Prod.fst) : PassedEscape [letter]
  /-- Any number. -/
  | unit {body : List Char} {n : Nat} (word : HexWord body n) : PassedEscape ('u' :: body)

theorem reads_skipEscape : Reads skipEscape fun body _ => PassedEscape body := by
  intro s _ r
  constructor
  · intro h
    rw [skipEscape.eq_def] at h
    split at h
    case h_1 => simp at h
    case h_2 first rest =>
      split at h
      case h_9 =>
        split at h
        case h_1 => cases h
        case h_2 n after hhex =>
          obtain ⟨word, rfl, hword⟩ := (reads_readHex ..).1 hhex
          cases h
          exact ⟨'u' :: word, rfl, .unit hword⟩
      case h_10 => simp at h
      all_goals
        cases h
        exact ⟨[_], rfl, .short (by simp [shortEscapes])⟩
  · rintro ⟨body, rfl, hescape⟩
    cases hescape with
    | short listed =>
      simp only [shortEscapes, List.map_cons, List.map_nil, List.mem_cons, List.not_mem_nil,
        or_false] at listed
      rcases listed with rfl | rfl | rfl | rfl | rfl | rfl | rfl | rfl <;> rfl
    | @unit word n hword =>
      have hhex : readHex (word ++ r) = .ok (n, r) := (reads_readHex ..).2 ⟨word, rfl, hword⟩
      simp [skipEscape, hhex]

/-- The characters of a string that is passed over. -/
inductive PassedCharacters : List Char → Prop where
  | nil : PassedCharacters []
  /-- A character that stands for itself. -/
  | plain {c : Char} {s : List Char} (quote : c ≠ '"') (backslash : c ≠ '\\')
    (control : ¬ c < ' ') (rest : PassedCharacters s) : PassedCharacters (c :: s)
  /-- An escape. -/
  | escaped {e s : List Char} (escape : PassedEscape e) (rest : PassedCharacters s) :
    PassedCharacters ('\\' :: (e ++ s))

theorem exists_of_skipCharacters (h : skipCharacters s = .ok ((), r)) :
    ∃ body, s = body ++ '"' :: r ∧ PassedCharacters body := by
  fun_induction skipCharacters s with
  | case1 => simp at h
  | case2 rest =>
    cases h
    exact ⟨[], rfl, .nil⟩
  | case3 rest rest' hread _ _ ih =>
    obtain ⟨e, rfl, hescape⟩ := (reads_skipEscape ..).1 hread
    obtain ⟨body, rfl, hbody⟩ := ih h
    exact ⟨'\\' :: (e ++ body), by simp, .escaped hescape hbody⟩
  | case4 => contradiction
  | case5 => simp at h
  | case6 c rest hquote hbackslash hcontrol ih =>
    obtain ⟨body, rfl, hbody⟩ := ih h
    exact ⟨c :: body, rfl, .plain hquote hbackslash hcontrol hbody⟩

theorem skipCharacters_append {body : List Char} (h : PassedCharacters body) (r : List Char) :
    skipCharacters (body ++ '"' :: r) = .ok ((), r) := by
  induction h with
  | nil =>
    rw [List.nil_append, skipCharacters.eq_def]
    rfl
  | plain quote backslash control rest ih =>
    rw [List.cons_append, skipCharacters.eq_def]
    dsimp only
    rw [if_neg quote, if_neg backslash, if_neg control, ih]
  | @escaped e s escape rest ih =>
    have hread : skipEscape (e ++ (s ++ '"' :: r)) = .ok ((), s ++ '"' :: r) :=
      (reads_skipEscape ..).2 ⟨e, rfl, escape⟩
    rw [List.cons_append, List.append_assoc, skipCharacters.eq_def]
    dsimp only
    rw [if_neg (by decide), if_pos rfl]
    split
    case h_1 rest' hread' =>
      rw [hread] at hread'
      cases hread'
      exact ih
    case h_2 e' hfault =>
      rw [hread] at hfault
      cases hfault

/-- A string is passed over up to its closing quote. -/
theorem reads_skipCharacters :
    Reads skipCharacters fun body _ => ∃ s, body = s ++ ['"'] ∧ PassedCharacters s := by
  intro s _ r
  constructor
  · intro h
    obtain ⟨body, rfl, hbody⟩ := exists_of_skipCharacters h
    exact ⟨body ++ ['"'], by simp, body, rfl, hbody⟩
  · rintro ⟨_, rfl, body, rfl, hbody⟩
    rw [List.append_assoc, List.singleton_append, skipCharacters_append hbody]

end Reline.Json
