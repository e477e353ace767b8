/-
  Reline.Pattern.Cursor

  A place in the text of a pattern that is being read.
-/

import Reline.Pattern.Fault
import Reline.Text.Blank

namespace Reline.Pattern

/-- The rest of a pattern behind a place. -/
structure Cursor where
  /-- The characters that follow. -/
  rest : List Char
  /-- How many characters are in front. -/
  position : Nat
  /-- Whether blanks and comments are passed over. -/
  extended : Bool

namespace Cursor

/-- The beginning of a pattern. -/
def ofString (pattern : String) : Cursor := ⟨pattern.toList, 0, false⟩

/-- Whether nothing follows. -/
def atEnd (cursor : Cursor) : Bool := cursor.rest.isEmpty

/-- The place itself. -/
def here (cursor : Cursor) : Span := ⟨cursor.position, cursor.position⟩

/-- The next character. -/
def next (cursor : Cursor) : Span := ⟨cursor.position, cursor.position + 1⟩

/-- From a position up to this place. -/
def since (cursor : Cursor) (start : Nat) : Span := ⟨start, cursor.position⟩

/-- The place some characters further on. -/
def drop (cursor : Cursor) (n : Nat) : Cursor :=
  let dropped := (cursor.rest.take n).length
  { cursor with rest := cursor.rest.drop n, position := cursor.position + dropped }

/-- How many characters at the beginning of a text are blanks and comments. A comment reaches to the
end of its line. -/
def blanks : (inComment : Bool) → List Char → Nat
  | _, [] => 0
  | true, c :: rest => blanks (c ≠ '\n') rest + 1
  | false, c :: rest =>
    if Text.isBlank c then blanks false rest + 1
    else if c = '#' then blanks true rest + 1
    else 0

/-- The place behind blanks and comments, if those are passed over. -/
def skip (cursor : Cursor) : Cursor :=
  if cursor.extended then cursor.drop (blanks false cursor.rest) else cursor

/-- The place behind the next character, and behind the blanks that follow it. -/
def step (cursor : Cursor) : Cursor := (cursor.drop 1).skip

/-- The first character of a text that is no blank; one number sign is passed over as well. -/
def visible? : (signPassed : Bool) → List Char → Option Char
  | _, [] => none
  | signPassed, c :: rest =>
    if Text.isBlank c then visible? signPassed rest
    else if c = '#' && ! signPassed then visible? true rest
    else some c

/-- The character behind the next one. Where blanks and comments are passed over, blanks and the
beginning of a comment are left aside, unless nothing else follows. -/
def second? (cursor : Cursor) : Option Char :=
  let behind := cursor.rest.drop 1
  if cursor.extended then visible? false behind <|> behind.head? else behind.head?

/-- The place behind a word, if the word follows. -/
def pass? (cursor : Cursor) (word : List Char) : Option Cursor :=
  if word.isPrefixOf cursor.rest then some (cursor.drop word.length) else none

end Cursor

end Reline.Pattern
