/-
  Reline.Json.Typed

  Reading JSON values of expected types.

  The text is read once from left to right, and a value of another type is a
  fault as soon as its first token is complete: whatever is wrong behind it is
  never seen.
-/

import Reline.Json.Skip
import Reline.Text.Quoted

namespace Reline.Json

/-! ## Values of the wrong type -/

/-- The fault of a value that is not of the expected type: a scalar is read first, so that a
malformed one is reported as such. -/
def failType {α : Type} (expected : String) (s : List Char) : Except Error α :=
  let wrong (found : String) (rest : List Char) : Except Error α :=
    failBefore (.wrongType found expected) rest
  match s with
  | [] => failAt .endOfValue []
  | c :: rest =>
    match c with
    | 'n' => (readLetters ['u', 'l', 'l'] rest).bind fun (_, rest) => wrong "null" rest
    | 't' => (readLetters ['r', 'u', 'e'] rest).bind fun (_, rest) => wrong "boolean `true`" rest
    | 'f' =>
      (readLetters ['a', 'l', 's', 'e'] rest).bind fun (_, rest) => wrong "boolean `false`" rest
    | '"' => (readCharacters rest).bind fun (t, rest) => wrong s!"string {Text.quoted t}" rest
    | '[' => wrong "sequence" s
    | '{' => wrong "map" s
    | _ =>
      if c = '-' || c.isDigit then
        (readNumber s).bind fun (number, rest) => wrong number.description rest
      else failAt .expectedValue s

/-! ## Scalars -/

/-- Reads a string. -/
def readString (s : List Char) : Result String :=
  match skipSpace s with
  | '"' :: rest => readCharacters rest
  | rest => failType "a string" rest

/-- Reads an integer of 32 bits. -/
def readInt32 (s : List Char) : Result Int :=
  match skipSpace s with
  | c :: rest =>
    if c = '-' || c.isDigit then
      match readNumber (c :: rest) with
      | .error e => .error e
      | .ok (.integer n, rest) =>
        if -0x8000_0000 ≤ n ∧ n < 0x8000_0000 then .ok (n, rest)
        else failBefore (.wrongValue (Number.integer n).description "i32") rest
      | .ok (.float negative magnitude, rest) =>
        failBefore (.wrongType (Number.float negative magnitude).description "i32") rest
    else failType "i32" (c :: rest)
  | [] => failAt .endOfValue []

/-! ## Elements of a list -/

/-- Goes to the next element of a list; `none` at the closing bracket, which is left unread. `first`
says that no element stands in front. -/
def nextElement (first : Bool) (s : List Char) : Result Bool :=
  match skipSpace s with
  | [] => failAt .endOfList []
  | ']' :: rest => .ok (false, ']' :: rest)
  | c :: rest =>
    if first then .ok (true, c :: rest)
    else if c = ',' then
      match skipSpace rest with
      | [] => failAt .endOfValue []
      | ']' :: rest => failAt .trailingComma (']' :: rest)
      | rest => .ok (true, rest)
    else failAt .expectedListComma (c :: rest)

/-- Reads the closing bracket of a list. -/
def closeList (s : List Char) : Result Unit :=
  match skipSpace s with
  | [] => failAt .endOfList []
  | ']' :: rest => .ok ((), rest)
  | ',' :: rest =>
    match skipSpace rest with
    | ']' :: rest => failAt .trailingComma (']' :: rest)
    | rest => failAt .trailingCharacters rest
  | rest => failAt .trailingCharacters rest

/-- Reads the integers of a list up to its closing bracket, the latest first. Every turn takes a
character. -/
def integersOnto : (turns : Nat) → List Int → List Char → Result (List Int)
  | 0, _, s => failAt .endOfValue s
  | turns + 1, onto, s =>
    match nextElement onto.isEmpty s with
    | .error e => .error e
    | .ok (false, rest) => .ok (onto, rest)
    | .ok (true, rest) =>
      match readInt32 rest with
      | .error e => .error e
      | .ok (n, rest) => integersOnto turns (n :: onto) rest

/-- Reads a list of integers of 32 bits. -/
def readIntegers (s : List Char) : Result (List Int) :=
  match skipSpace s with
  | '[' :: rest =>
    match integersOnto (rest.length + 1) [] rest with
    | .error e => .error e
    | .ok (back, rest) => (closeList rest).map fun (_, rest) => (back.reverse, rest)
  | rest => failType "a sequence" rest

/-- Reads `null` or what `read` reads. -/
def readOptional {α : Type} (read : List Char → Result α) (s : List Char) : Result (Option α) :=
  match skipSpace s with
  | 'n' :: rest => (readLetters ['u', 'l', 'l'] rest).map fun (_, rest) => (none, rest)
  | rest => (read rest).map fun (value, rest) => (some value, rest)

/-! ## Fields of an object -/

/-- Goes to the next key of an object and reads it; `none` at the closing bracket, which is left
unread. -/
def nextKey (first : Bool) (s : List Char) : Result (Option String) :=
  let key (s : List Char) : Result (Option String) :=
    (readCharacters s).map fun (key, rest) => (some key, rest)
  match skipSpace s with
  | [] => failAt .endOfObject []
  | '}' :: rest => .ok (none, '}' :: rest)
  | c :: rest =>
    if first then
      if c = '"' then key rest else failAt .keyMustBeString (c :: rest)
    else if c = ',' then
      match skipSpace rest with
      | [] => failAt .endOfValue []
      | '"' :: rest => key rest
      | '}' :: rest => failAt .trailingComma ('}' :: rest)
      | rest => failAt .keyMustBeString rest
    else failAt .expectedObjectComma (c :: rest)

/-- The text behind blanks and behind the closing bracket of an object, if that comes next. -/
def skipObjectEnd (s : List Char) : List Char :=
  match skipSpace s with
  | '}' :: rest => rest
  | rest => rest

/-- Reads the colon behind a key. -/
def readColon (s : List Char) : Result Unit :=
  match skipSpace s with
  | [] => failAt .endOfObject []
  | ':' :: rest => .ok ((), rest)
  | rest => failAt .expectedColon rest

/-! ## The end of the text -/

/-- Accepts only blanks. -/
def readEnd (s : List Char) : Except Error Unit :=
  match skipSpace s with
  | [] => .ok ()
  | rest => failAt .trailingCharacters rest

end Reline.Json
