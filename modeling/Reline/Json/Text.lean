/-
  Reline.Json.Text

  Blanks, literals and strings of JSON text.

  A reader takes the text that is left and gives what it read with the rest
  behind it. Strings may hold any character but a raw control character; a
  surrogate escape must come as a pair, except in a string that is passed over.
-/

import Reline.Json.Error
import Reline.Text.Hexadecimal

namespace Reline.Json

/-! ## Blanks and literals -/

/-- A character that may stand between tokens. -/
def isSpace (c : Char) : Bool :=
  c = ' ' || c = '\n' || c = '\t' || c = '\r'

/-- The text behind leading blanks. -/
def skipSpace : List Char → List Char
  | c :: rest => if isSpace c then skipSpace rest else c :: rest
  | [] => []

/-- Reads the letters of a literal. -/
def readLetters : (letters : List Char) → List Char → Result Unit
  | [], s => .ok ((), s)
  | _ :: _, [] => failAt .endOfValue []
  | letter :: letters, c :: rest =>
    if c = letter then readLetters letters rest else failAt .expectedIdent (c :: rest)

/-! ## Escapes -/

/-- The number of four hexadecimal digits. -/
def hexWord? (a b c d : Char) : Option Nat := do
  let high := (← Text.hexDigit? a) * 16 + (← Text.hexDigit? b)
  let low := (← Text.hexDigit? c) * 16 + (← Text.hexDigit? d)
  return high * 256 + low

/-- The fault of a hexadecimal escape: either the text has fewer than four bytes left, or one of
them is no digit. -/
def failHex {α : Type} (s : List Char) : Except Error α :=
  let left := Text.Utf8.byteLength s
  if left < 4 then failBefore .endOfString [] else .error ⟨.invalidEscape, left - 4⟩

/-- Reads four hexadecimal digits. -/
def readHex : List Char → Result Nat
  | a :: b :: c :: d :: rest =>
    match hexWord? a b c d with
    | some n => .ok (n, rest)
    | none => failHex (a :: b :: c :: d :: rest)
  | s => failHex s

/-- A code unit that opens a surrogate pair. -/
def isLeading (n : Nat) : Bool := 0xD800 ≤ n && n ≤ 0xDBFF

/-- A code unit that closes a surrogate pair. -/
def isTrailing (n : Nat) : Bool := 0xDC00 ≤ n && n ≤ 0xDFFF

/-- Reads the second half of a surrogate pair, given the first. -/
def readTrailing (leading : Nat) : List Char → Result Char
  | '\\' :: 'u' :: rest =>
    match readHex rest with
    | .error e => .error e
    | .ok (n, rest) =>
      if isTrailing n then
        .ok (Char.ofNat (0x10000 + (leading - 0xD800) * 0x400 + (n - 0xDC00)), rest)
      else
        failBefore .loneSurrogate rest
  | [] | ['\\'] => failAt .endOfString []
  | '\\' :: rest | rest => failAt .endOfSurrogate rest

/-- Reads the character that an escape stands for, behind its backslash. -/
def readEscape : List Char → Result Char
  | [] => failBefore .endOfString []
  | c :: rest =>
    match c with
    | '"' | '\\' | '/' => .ok (c, rest)
    | 'b' => .ok ('\x08', rest)
    | 'f' => .ok ('\x0c', rest)
    | 'n' => .ok ('\n', rest)
    | 'r' => .ok ('\r', rest)
    | 't' => .ok ('\t', rest)
    | 'u' =>
      match readHex rest with
      | .error e => .error e
      | .ok (n, rest) =>
        if isTrailing n then failBefore .loneSurrogate rest
        else if isLeading n then readTrailing n rest
        else .ok (Char.ofNat n, rest)
    | _ => failAt .invalidEscape (c :: rest)

/-- Passes over an escape, behind its backslash. -/
def skipEscape : List Char → Result Unit
  | [] => failBefore .endOfString []
  | c :: rest =>
    match c with
    | '"' | '\\' | '/' | 'b' | 'f' | 'n' | 'r' | 't' => .ok ((), rest)
    | 'u' =>
      match readHex rest with
      | .error e => .error e
      | .ok (_, rest) => .ok ((), rest)
    | _ => failAt .invalidEscape (c :: rest)

/-! ## Escapes are not empty -/

theorem length_of_readHex {s r : List Char} {n : Nat} (h : readHex s = .ok (n, r)) :
    r.length < s.length := by
  unfold readHex at h
  split at h
  · split at h
    · simp only [Except.ok.injEq, Prod.mk.injEq] at h
      simp only [← h.2, List.length_cons]
      omega
    · simp only [failHex, failBefore] at h
      split at h <;> simp at h
  · simp only [failHex, failBefore] at h
    split at h <;> simp at h

theorem length_of_readTrailing {leading : Nat} {s r : List Char} {c : Char}
    (h : readTrailing leading s = .ok (c, r)) : r.length < s.length := by
  unfold readTrailing at h
  split at h
  · split at h
    · simp at h
    next hex =>
      have := length_of_readHex hex
      split at h
      · simp only [Except.ok.injEq, Prod.mk.injEq] at h
        simp only [← h.2, List.length_cons]
        omega
      · simp [failBefore] at h
  all_goals simp [failAt] at h

theorem length_of_readEscape {s r : List Char} {c : Char} (h : readEscape s = .ok (c, r)) :
    r.length < s.length := by
  unfold readEscape at h
  split at h
  · simp [failBefore] at h
  next =>
    split at h
    case h_9 =>
      split at h
      · simp at h
      next hex =>
        have := length_of_readHex hex
        split at h
        · simp [failBefore] at h
        · split at h
          · have := length_of_readTrailing h
            simp only [List.length_cons]
            omega
          · simp only [Except.ok.injEq, Prod.mk.injEq] at h
            simp only [← h.2, List.length_cons]
            omega
    all_goals simp [failAt] at h
    all_goals simp [← h.2]

theorem length_of_skipEscape {s r : List Char} (h : skipEscape s = .ok ((), r)) :
    r.length < s.length := by
  unfold skipEscape at h
  split at h
  · simp [failBefore] at h
  next =>
    split at h
    case h_9 =>
      split at h
      · simp at h
      next hex =>
        have := length_of_readHex hex
        simp only [Except.ok.injEq, Prod.mk.injEq, true_and] at h
        simp only [← h, List.length_cons]
        omega
    all_goals simp [failAt] at h
    all_goals simp [← h]

/-! ## Strings -/

/-- Reads the rest of a string behind its opening quote, giving the characters in reverse. -/
def charactersOnto (onto : List Char) (s : List Char) : Result (List Char) :=
  match s with
  | [] => failBefore .endOfString []
  | c :: rest =>
    if c = '"' then .ok (onto, rest)
    else if c = '\\' then
      match h : readEscape rest with
      | .ok (c, rest') =>
        have := length_of_readEscape h
        charactersOnto (c :: onto) rest'
      | .error e => .error e
    else if c < ' ' then failBefore .controlCharacter rest
    else charactersOnto (c :: onto) rest
termination_by s.length
decreasing_by all_goals (simp only [List.length_cons]; omega)

/-- Reads the rest of a string behind its opening quote. -/
def readCharacters (s : List Char) : Result String :=
  (charactersOnto [] s).map fun (back, rest) => (String.ofList back.reverse, rest)

/-- Passes over the rest of a string behind its opening quote. -/
def skipCharacters (s : List Char) : Result Unit :=
  match s with
  | [] => failBefore .endOfString []
  | c :: rest =>
    if c = '"' then .ok ((), rest)
    else if c = '\\' then
      match h : skipEscape rest with
      | .ok ((), rest') =>
        have := length_of_skipEscape h
        skipCharacters rest'
      | .error e => .error e
    else if c < ' ' then failBefore .controlCharacter (c :: rest)
    else skipCharacters rest
termination_by s.length
decreasing_by all_goals (simp only [List.length_cons]; omega)

end Reline.Json
