/-
  Reline.Pattern.Term

  The structure of a pattern as it is written.

  What a part of a pattern means depends on the flags in force where it stands;
  therefore parts keep their places until the flags are known.
-/

import Reline.Pattern.CharSet
import Reline.Pattern.Fault

namespace Reline.Pattern

/-- A character of a pattern. -/
structure Letter where
  /-- Where it is written. -/
  span : Span
  /-- The character. -/
  char : Char
  /-- Whether it is written as two hexadecimal digits, which may stand for a byte. -/
  isByte : Bool
deriving DecidableEq, Repr

/-- An anchor, apart from what the flags say about it. -/
inductive Mark where
  /-- The beginning of the text or of a line. -/
  | caret
  /-- The end of the text or of a line. -/
  | dollar
  | textStart
  | textEnd
  | wordEdge
  | noWordEdge
  | wordStart
  | wordEnd
  | wordStartHalf
  | wordEndHalf
deriving DecidableEq, Repr

/-! ## Sets -/

/-- How two sets are combined. -/
inductive SetOperator where
  | intersection
  | difference
  | symmetricDifference
deriving DecidableEq, Repr

/-- A set of characters, or a part of one. -/
inductive SetTerm where
  /-- No part at all. -/
  | empty (span : Span)
  | letter (letter : Letter)
  | range (first last : Letter)
  /-- A class with a letter of its own, such as the digits. -/
  | perl (span : Span) (kind : AsciiClass) (negated : Bool)
  /-- A class of characters with a property. -/
  | property (span : Span) (name : String)
  /-- A class with a name between colons. -/
  | named (span : Span) (kind : AsciiClass) (negated : Bool)
  /-- A set between brackets. -/
  | bracket (span : Span) (negated : Bool) (body : SetTerm)
  | union (a b : SetTerm)
  | combine (operator : SetOperator) (a b : SetTerm)
deriving DecidableEq, Repr

namespace SetTerm

/-- Where a part of a set is written. -/
def span : SetTerm → Span
  | empty span | perl span .. | property span _ | named span .. | bracket span .. => span
  | letter l => l.span
  | range first last => ⟨first.span.start, last.span.stop⟩
  | union a b | combine _ a b => ⟨a.span.start, b.span.stop⟩

/-- Whether a part has no parts of its own. -/
def isEmpty : SetTerm → Bool
  | empty _ => true
  | _ => false

/-- Whether a set is put together without naming a character, so that letters are in it in either
case or not at all. -/
def isCaseless : SetTerm → Bool
  | empty _ => true
  | letter _ | range .. | perl .. | property .. | named .. => false
  | bracket _ _ body => body.isCaseless
  | union a b | combine _ a b => a.isCaseless && b.isCaseless

/-- A set with one more part. -/
def push (set part : SetTerm) : SetTerm :=
  if set.isEmpty then part else union set part

end SetTerm

/-! ## Flags -/

/-- A switch of the rules for matching. -/
inductive Flag where
  /-- Letters match in either case. -/
  | ignoreCase
  /-- The beginnings and ends of lines are found. -/
  | multiLine
  /-- A dot also matches line ends. -/
  | dotAll
  /-- Repetitions prefer few turns. -/
  | swapGreed
  /-- Characters are matched, not bytes. -/
  | unicode
  /-- A carriage return ends a line as well. -/
  | crlf
  /-- Blanks and comments in the pattern are passed over. -/
  | extended
deriving DecidableEq, Repr

/-- The flag with a letter. -/
def Flag.ofChar? : Char → Option Flag
  | 'i' => some ignoreCase
  | 'm' => some multiLine
  | 's' => some dotAll
  | 'U' => some swapGreed
  | 'u' => some unicode
  | 'R' => some crlf
  | 'x' => some extended
  | _ => none

/-- A part of a list of flags: `none` is the sign behind which flags are switched off. -/
abbrev FlagItem := Option Flag

/-- What a list of flags says about one flag. -/
def stateOf? (flag : Flag) (items : List FlagItem) : Option Bool :=
  if items.contains (some flag) then
    some (! (items.takeWhile (· ≠ some flag)).contains none)
  else none

/-! ## Patterns -/

/-- A part of a pattern. -/
inductive Term where
  | empty
  | letter (letter : Letter)
  /-- A dot. -/
  | anyChar (span : Span)
  | mark (mark : Mark)
  | set (set : SetTerm)
  /-- Flags for the rest of the group. -/
  | flags (items : List FlagItem)
  /-- A group with flags of its own. -/
  | group (items : List FlagItem) (body : Term)
  /-- A group whose match is kept; `place` is where it begins. -/
  | capture (place : Nat) (body : Term)
  | concat (a b : Term)
  | alternate (a b : Term)
  /-- A repetition; the `greedy` ones prefer many turns. -/
  | repeated (least : Nat) (most : Option Nat) (greedy : Bool) (a : Term)
  /-- A part that has parts of its own, and where it is written. -/
  | nested (span : Span) (body : Term)
deriving DecidableEq, Repr

namespace Term

/-- The parts of a list, the latest first, one behind the other. -/
def ofParts (span : Span) (parts : List Term) : Term :=
  let sequence := parts.foldl (fun rest part => concat part rest) empty
  if 1 < parts.length then nested span sequence else sequence

/-- The branches of a list, the latest first, and one behind them. -/
def ofBranches (span : Span) (branches : List Term) (last : Term) : Term :=
  if branches.isEmpty then last
  else nested span (branches.foldl (fun rest branch => alternate branch rest) last)

/-- Whether a repetition can apply to a part. -/
def isRepeatable : Term → Bool
  | empty | flags _ => false
  | _ => true

end Term

end Reline.Pattern
