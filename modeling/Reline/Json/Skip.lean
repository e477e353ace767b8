/-
  Reline.Json.Skip

  Passing over a JSON value whose contents do not matter.

  The brackets that are open are kept in a list, so that nesting of any depth is
  passed over in one loop. Each turn of the loop reads one scalar or one opening
  bracket and then every closing bracket that follows.
-/

import Reline.Json.Number
import Reline.Json.Text

namespace Reline.Json

/-- An open bracket. -/
inductive Bracket where
  | list
  | object
deriving DecidableEq, Repr

namespace Bracket

/-- The character that closes the bracket. -/
def closing : Bracket → Char
  | list => ']'
  | object => '}'

/-- The fault of a text that ends inside the bracket. -/
def atEnd : Bracket → Cause
  | list => .endOfList
  | object => .endOfObject

/-- The fault of an element that is followed by neither a comma nor the closing bracket. -/
def expectedComma : Bracket → Cause
  | list => .expectedListComma
  | object => .expectedObjectComma

end Bracket

/-- Passes over a value without contents, or into a value with contents. -/
def enter (s : List Char) : Result (Option Bracket) :=
  match s with
  | [] => failAt .endOfValue []
  | c :: rest =>
    match c with
    | 'n' => (readLetters ['u', 'l', 'l'] rest).map fun (_, rest) => (none, rest)
    | 't' => (readLetters ['r', 'u', 'e'] rest).map fun (_, rest) => (none, rest)
    | 'f' => (readLetters ['a', 'l', 's', 'e'] rest).map fun (_, rest) => (none, rest)
    | '"' => (skipCharacters rest).map fun (_, rest) => (none, rest)
    | '[' => .ok (some .list, rest)
    | '{' => .ok (some .object, rest)
    | _ =>
      if c = '-' || c.isDigit then (skipNumber s).map fun (_, rest) => (none, rest)
      else failAt .expectedValue s

/-- Passes over closing brackets. `afterValue` says whether a value, rather than an opening bracket,
stands in front. The result lists the brackets still open, at whose next value the text then is; it
is empty behind the whole value. -/
def leave (brackets : List Bracket) (afterValue : Bool) (s : List Char) : Result (List Bracket) :=
  match brackets with
  | [] => .ok ([], s)
  | bracket :: outer =>
    match skipSpace s with
    | [] => failAt bracket.atEnd []
    | c :: rest =>
      if c = bracket.closing then leave outer true rest
      else if ! afterValue then .ok (bracket :: outer, c :: rest)
      else if c = ',' then .ok (bracket :: outer, rest)
      else failAt bracket.expectedComma (c :: rest)

/-- Passes over a key and its colon. -/
def skipKey (s : List Char) : Result Unit :=
  match skipSpace s with
  | '"' :: rest =>
    match skipCharacters rest with
    | .error e => .error e
    | .ok ((), rest) =>
      match skipSpace rest with
      | ':' :: rest => .ok ((), rest)
      | [] => failAt .endOfObject []
      | rest => failAt .expectedColon rest
  | [] => failAt .endOfObject []
  | rest => failAt .keyMustBeString rest

/-- Passes over a value inside open brackets and over all that follows up to their ends. Every turn
takes a character, so that many turns as there are characters suffice. -/
def skipWithin : (turns : Nat) → List Bracket → List Char → Result Unit
  | 0, _, s => failAt .endOfValue s
  | turns + 1, brackets, s =>
    match enter (skipSpace s) with
    | .error e => .error e
    | .ok (entered, rest) =>
      let left := match entered with
        | some bracket => leave (bracket :: brackets) false rest
        | none => leave brackets true rest
      match left with
      | .error e => .error e
      | .ok ([], rest) => .ok ((), rest)
      | .ok (.list :: outer, rest) => skipWithin turns (.list :: outer) rest
      | .ok (.object :: outer, rest) =>
        match skipKey rest with
        | .error e => .error e
        | .ok ((), rest) => skipWithin turns (.object :: outer) rest

/-- Passes over one value. -/
def skipValue (s : List Char) : Result Unit :=
  skipWithin (s.length + 1) [] s

end Reline.Json
