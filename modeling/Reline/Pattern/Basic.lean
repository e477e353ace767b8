/-
  Reline.Pattern.Basic

  Regular expressions, and whether one occurs in a text.

  The gaps of a text, in front of, between and behind its characters, are numbered
  from zero, and a set of gaps is a number with one bit for each. A pattern takes
  the gaps where it may begin to the gaps where it may end. So it occurs in the
  text if it takes the set of all gaps to one that is not empty.
-/

import Reline.Pattern.CharSet

namespace Reline

/-- A condition on a gap, which sees the characters on either side of it. -/
inductive Anchor where
  /-- The beginning of the text. -/
  | textStart
  /-- The end of the text. -/
  | textEnd
  /-- The beginning of a line; `crlf` says that a carriage return ends lines as well. -/
  | lineStart (crlf : Bool)
  /-- The end of a line. -/
  | lineEnd (crlf : Bool)
  /-- Between a word and what is no word. -/
  | wordEdge
  /-- Inside a word, or outside. -/
  | noWordEdge
  /-- In front of a word. -/
  | wordStart
  /-- Behind a word. -/
  | wordEnd
  /-- Not behind a character of a word. -/
  | wordStartHalf
  /-- Not in front of a character of a word. -/
  | wordEndHalf
  /-- Any of these where words may have letters beyond ASCII. There is no table of such letters, so
  that no gap is known to meet it. -/
  | unicodeWord
deriving DecidableEq, Repr

/-- A regular expression. -/
inductive Pattern where
  | empty
  | char (chars : CharSet)
  | anchor (condition : Anchor)
  /-- A group whose match is kept; groups are told apart by where they begin. -/
  | group (place : Nat) (a : Pattern)
  | concat (a b : Pattern)
  | alternate (a b : Pattern)
  /-- As many times as `least` says, and more often up to `most`, if that is given. The `greedy`
  ones prefer many turns, which does not matter to whether a pattern occurs. -/
  | repeated (least : Nat) (most : Option Nat) (greedy : Bool) (a : Pattern)
deriving DecidableEq, Repr

/-! ## Conditions on gaps -/

/-- A gap: the characters in front of it and behind it. -/
abbrev Gap := Option Char × Option Char

namespace Gap

/-- The gaps of a text that follows a character. -/
def after (before : Option Char) : List Char → List Gap
  | [] => [(before, none)]
  | c :: rest => (before, some c) :: after (some c) rest

/-- Whether an ASCII letter, a digit or an underscore stands on one side. -/
def isWordSide (side : Option Char) : Bool :=
  side.any AsciiClass.word.chars.contains

end Gap

/-- Whether a gap meets a condition. -/
def Anchor.holdsAt (condition : Anchor) (gap : Gap) : Bool :=
  let (before, behind) := gap
  let wordBefore := Gap.isWordSide before
  let wordBehind := Gap.isWordSide behind
  match condition with
  | textStart => before.isNone
  | textEnd => behind.isNone
  | lineStart false => before.isNone || before = some '\n'
  | lineEnd false => behind.isNone || behind = some '\n'
  | lineStart true =>
    before.isNone || before = some '\n' || (before = some '\r' && behind ≠ some '\n')
  | lineEnd true =>
    behind.isNone || behind = some '\r' || (behind = some '\n' && before ≠ some '\r')
  | wordEdge => wordBefore ≠ wordBehind
  | noWordEdge => wordBefore = wordBehind
  | wordStart => ! wordBefore && wordBehind
  | wordEnd => wordBefore && ! wordBehind
  | wordStartHalf => ! wordBefore
  | wordEndHalf => ! wordBehind
  | unicodeWord => false

namespace Pattern

/-! ## Sets of gaps -/

/-- The number whose bits are given, the lowest first. -/
def ofBits (bits : List Bool) : Nat :=
  bits.foldr (fun bit n => 2 * n + bit.toNat) 0

/-- Applies a step to a value up to a number of times, and no more once that changes nothing. -/
def iterate (step : Nat → Nat) : (times : Nat) → Nat → Nat
  | 0, n => n
  | times + 1, n =>
    let next := step n
    if next = n then n else iterate step times next

/-- The gaps where a pattern may end if it begins at one of `starts`. A text has one gap more than
it has characters; a repetition that goes on for longer stays at a gap at least once, and further
turns reach nothing new. -/
def ends (text : List Char) (pattern : Pattern) (starts : Nat) : Nat :=
  let turns := text.length + 1
  match pattern with
  | empty => starts
  | char chars => (starts &&& ofBits (text.map chars.contains)) <<< 1
  | anchor condition => starts &&& ofBits ((Gap.after none text).map condition.holdsAt)
  | group _ a => a.ends text starts
  | concat a b => b.ends text (a.ends text starts)
  | alternate a b => a.ends text starts ||| b.ends text starts
  | repeated least most _ a =>
    let first := iterate (a.ends text) (min least turns) starts
    let more := match most with
      | some most => min (most - least) turns
      | none => turns
    iterate (fun n => n ||| a.ends text n) more first

/-- Whether a pattern occurs in a text. -/
def occursIn (pattern : Pattern) (text : String) : Bool :=
  let text := text.toList
  pattern.ends text (1 <<< (text.length + 1) - 1) ≠ 0

end Pattern

end Reline
