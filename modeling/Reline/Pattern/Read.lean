/-
  Reline.Pattern.Read

  Reading the text of a pattern.

  The groups that are open are kept in a list, the innermost first, so that
  nesting of any depth is read in one loop.
-/

import Reline.Pattern.Bracket
import Reline.Text.Alphabetic
import Reline.Text.Numeric

namespace Reline.Pattern

/-- A part of a branch. -/
structure Part where
  /-- Where it begins. -/
  start : Nat
  /-- What it is. -/
  term : Term

/-- What was read of a group, or of the pattern outside of all groups. -/
structure Body where
  /-- Where it begins. -/
  start : Nat
  /-- The finished branches, the latest first. -/
  branches : List Term
  /-- Where the current branch begins. -/
  branchStart : Nat
  /-- The parts of the current branch, the latest first. -/
  parts : List Part

namespace Body

/-- A body that begins at a place. -/
def beginning (start : Nat) : Body := ⟨start, [], start, []⟩

/-- The current branch, which ends at `stop`. -/
def branch (body : Body) (stop : Nat) : Term :=
  .ofParts ⟨body.branchStart, stop⟩ (body.parts.map Part.term)

/-- Everything that was read; it ends at `stop`. -/
def term (body : Body) (stop : Nat) : Term :=
  .ofBranches ⟨body.start, stop⟩ body.branches (body.branch stop)

/-- Goes on to the next branch, behind the bar at a place. -/
def nextBranch (body : Body) (bar : Nat) : Body :=
  { body with branches := body.branch bar :: body.branches, branchStart := bar + 1, parts := [] }

end Body

/-- A group that is open, and what was read before it. -/
structure Frame where
  /-- The place of its parenthesis. -/
  opening : Span
  /-- Whether blanks were passed over in front of it. -/
  extended : Bool
  /-- Its flags; `none` if its match is kept. -/
  items : Option (List FlagItem)
  /-- What it stands in. -/
  outer : Body

/-- How far a pattern has been read. -/
structure Progress where
  /-- The open groups. -/
  frames : List Frame
  /-- What was read of the innermost group. -/
  body : Body
  /-- The names of groups, and where they are written. -/
  names : List (String × Span)

namespace Progress

/-- Nothing has been read. -/
def start : Progress := ⟨[], .beginning 0, []⟩

/-- Replaces the parts of the current branch. -/
def withParts (progress : Progress) (parts : List Part) : Progress :=
  { progress with body := { progress.body with parts } }

/-- Adds a part that begins at a place to the current branch. -/
def push (progress : Progress) (start : Nat) (term : Term) : Progress :=
  progress.withParts (⟨start, term⟩ :: progress.body.parts)

end Progress

/-- The progress at a place. -/
abbrev Step := Except Fault (Progress × Cursor)

/-! ## Groups -/

/-- Reads flags up to the colon or parenthesis behind them. `back` holds the flags before, the
latest first, and `dangling` is where a negation stands right in front. -/
def readFlags (position : Nat) (back : List (FlagItem × Span)) (dangling : Option Span) :
    List Char → Except Fault (List FlagItem × Nat)
  | [] => fail .flagIncomplete ⟨position, position⟩
  | c :: rest => do
    if c = ':' || c = ')' then
      match dangling with
      | some span => fail .flagDangling span
      | none => return ((back.map Prod.fst).reverse, position)
    else
      let span : Span := ⟨position, position + 1⟩
      let item : FlagItem ←
        if c = '-' then pure none
        else
          match Flag.ofChar? c with
          | some flag => pure (some flag)
          | none => fail .flagUnrecognized span
      match back.find? (·.1 = item) with
      | some (_, earlier) =>
        let cause := if item.isNone then Cause.flagNegationRepeated else .flagDuplicate
        .error ⟨cause, span, some earlier⟩
      | none =>
        readFlags (position + 1) ((item, span) :: back) (if item.isNone then some span else none)
          rest

/-- Whether a character can stand in the name of a group; the `first` is a letter or an
underscore. -/
def isNameChar (first : Bool) (c : Char) : Bool :=
  c = '_' || Text.isAlphabetic c
    || (! first && (Text.isNumeric c || c = '.' || c = '[' || c = ']'))

/-- Reads the name of a group up to the bracket that closes it. The name began at `start`. -/
def readGroupName (start position : Nat) (back : List Char) :
    List Char → Except Fault (String × Nat)
  | [] => fail .groupNameUnclosed ⟨position, position⟩
  | c :: rest =>
    if c = '>' then
      if back.isEmpty then fail .groupNameEmpty ⟨start, start⟩
      else .ok (String.ofList back.reverse, position)
    else if isNameChar back.isEmpty c then readGroupName start (position + 1) (c :: back) rest
    else fail .groupNameInvalid ⟨position, position + 1⟩

/-- Goes into a group. -/
def enterGroup (opening : Span) (items : Option (List FlagItem)) (progress : Progress)
    (cursor : Cursor) : Progress × Cursor :=
  let frame : Frame := ⟨opening, cursor.extended, items, progress.body⟩
  let extended := (stateOf? .extended (items.getD [])).getD cursor.extended
  ({ progress with frames := frame :: progress.frames, body := .beginning cursor.position },
    { cursor with extended })

/-- The place behind the question mark, angle and letter that come before the name of a group. -/
def passNameMark? (cursor : Cursor) : Option Cursor :=
  cursor.pass? ['?', 'P', '<'] <|> cursor.pass? ['?', '<']

/-- The place behind the mark of a condition on what stands around a place. -/
def passLookAround? (cursor : Cursor) : Option Cursor :=
  cursor.pass? ['?', '='] <|> cursor.pass? ['?', '!'] <|> cursor.pass? ['?', '<', '=']
    <|> cursor.pass? ['?', '<', '!']

/-- Reads an opening parenthesis with what belongs to it, or flags for the rest of a group. -/
def openGroup (progress : Progress) (cursor : Cursor) : Step := do
  let opening := cursor.next
  let inside := (cursor.drop 1).skip
  if let some behind := passLookAround? inside then
    fail .unsupportedLookAround (behind.since opening.start)
  else if let some name := passNameMark? inside then
    let (text, stop) ← readGroupName name.position name.position [] name.rest
    let span : Span := ⟨name.position, stop⟩
    match progress.names.find? (·.1 = text) with
    | some (_, earlier) => .error ⟨.groupNameDuplicate, span, some earlier⟩
    | none =>
      let behind := name.drop (stop + 1 - name.position)
      let progress := { progress with names := (text, span) :: progress.names }
      return enterGroup opening none progress behind
  else if let some flags := inside.pass? ['?'] then
    if flags.atEnd then fail .groupUnclosed opening
    else
      let (items, stop) ← readFlags flags.position [] none flags.rest
      let close := flags.drop (stop - flags.position)
      let behind := close.drop 1
      if close.rest.head? = some ')' then
        if items.isEmpty then fail .repetitionMissing inside.here
        else
          let extended := (stateOf? .extended items).getD cursor.extended
          return (progress.push opening.start (.flags items), { behind with extended })
      else return enterGroup opening (some items) progress behind
  else return enterGroup opening none progress inside

/-- Reads a closing parenthesis. -/
def closeGroup (progress : Progress) (cursor : Cursor) : Step :=
  match progress.frames with
  | [] => fail .groupUnopened cursor.next
  | frame :: frames =>
    let start := frame.opening.start
    let body := progress.body.term cursor.position
    let group : Term := match frame.items with
      | some items => .group items body
      | none => .capture start body
    let outer : Progress := { progress with frames, body := frame.outer }
    .ok (outer.push start (.nested ⟨start, cursor.position + 1⟩ group),
      { cursor.drop 1 with extended := frame.extended })

/-! ## Repetitions -/

/-- Whether a repetition is greedy, and the place behind it: a question mark turns its preference
round. -/
def readPreference (cursor : Cursor) : Bool × Cursor :=
  match cursor.pass? ['?'] with
  | some cursor => (false, cursor)
  | none => (true, cursor)

/-- The last part of the current branch, and the parts before it; if it cannot be repeated, the
fault is at the operator. -/
def lastPart (operator : Span) (progress : Progress) : Except Fault (Part × List Part) :=
  match progress.body.parts with
  | part :: parts =>
    if part.term.isRepeatable then .ok (part, parts) else fail .repetitionMissing operator
  | [] => fail .repetitionMissing operator

/-- Takes digits, each with the blanks behind it. Every turn takes a character. -/
def takeDigits : (turns : Nat) → (back : List Char) → Cursor → List Char × Cursor
  | 0, back, cursor => (back.reverse, cursor)
  | turns + 1, back, cursor =>
    match cursor.rest with
    | c :: _ =>
      if c.isDigit then takeDigits turns (c :: back) cursor.step else (back.reverse, cursor)
    | [] => (back.reverse, cursor)

/-- The greatest count of a repetition. -/
def maxCount : Nat := 0xFFFF_FFFF

/-- Reads a count, which may have blanks on either side. A fault of the count itself is handed over,
because it only matters if nothing else is wrong before. -/
def readCount (cursor : Cursor) : Except Fault Nat × Cursor :=
  let passBlanks (cursor : Cursor) : Cursor :=
    cursor.drop (cursor.rest.takeWhile Text.isBlank).length
  let first := passBlanks cursor
  let (digits, last) := takeDigits first.rest.length [] first
  let span := last.since first.position
  let n := digits.foldl (fun n c => n * 10 + (c.toNat - '0'.toNat)) 0
  let count : Except Fault Nat :=
    if digits.isEmpty then fail .countEmpty span
    else if n ≤ maxCount then .ok n
    else fail .countInvalid span
  (count, (passBlanks last).skip)

/-- Reads the counts of a repetition from the opening brace on: the least, and the greatest if there
is one. -/
def readCounts (cursor : Cursor) : Except Fault ((Nat × Option Nat) × Cursor) := do
  let start := cursor.position
  let unclosed (cursor : Cursor) : Except Fault ((Nat × Option Nat) × Cursor) :=
    fail .countUnclosed (cursor.since start)
  let cursor := cursor.step
  if cursor.atEnd then unclosed cursor
  else
    let (least, cursor) := readCount cursor
    match cursor.rest with
    | [] => unclosed cursor
    | ',' :: _ =>
      let cursor := cursor.step
      match cursor.rest with
      | [] => unclosed cursor
      | '}' :: _ => return ((← least, none), cursor)
      | _ =>
        let least ← least
        let (most, cursor) := readCount cursor
        let most ← most
        if cursor.rest.head? = some '}' then return ((least, some most), cursor)
        else unclosed cursor
    | rest =>
      let least ← least
      if rest.head? = some '}' then return ((least, some least), cursor) else unclosed cursor

/-- Reads a repetition with counts. -/
def readCounted (progress : Progress) (cursor : Cursor) : Step := do
  let (part, parts) ← lastPart cursor.here progress
  let ((least, most), close) ← readCounts cursor
  let (greedy, behind) := readPreference close.step
  if most.any (· < least) then fail .countRangeInvalid (behind.since cursor.position)
  else
    let repeated := .nested (behind.since part.start) (.repeated least most greedy part.term)
    return (progress.withParts (⟨part.start, repeated⟩ :: parts), behind)

/-- Reads a repetition whose operator is a single character. -/
def readUncounted (least : Nat) (most : Option Nat) (progress : Progress) (cursor : Cursor) :
    Step := do
  let (part, parts) ← lastPart cursor.here progress
  let (greedy, behind) := readPreference (cursor.drop 1)
  let repeated := .nested (behind.since part.start) (.repeated least most greedy part.term)
  return (progress.withParts (⟨part.start, repeated⟩ :: parts), behind)

/-! ## Patterns -/

/-- Reads one part of a pattern, which begins with `c`. -/
def readPart (c : Char) (progress : Progress) (cursor : Cursor) : Step := do
  match c with
  | '(' => openGroup progress cursor
  | ')' => closeGroup progress cursor
  | '|' =>
    let body := progress.body.nextBranch cursor.position
    return ({ progress with body }, cursor.drop 1)
  | '[' =>
    let (set, behind) ← readSet cursor
    return (progress.push cursor.position (.set set), behind)
  | '?' => readUncounted 0 (some 1) progress cursor
  | '*' => readUncounted 0 none progress cursor
  | '+' => readUncounted 1 none progress cursor
  | '{' => readCounted progress cursor
  | _ =>
    let (primitive, span, behind) ← readPrimitive c cursor
    let part : Term := match primitive with
      | .letter symbol isByte => .letter ⟨span, symbol, isByte⟩
      | .anyChar => .anyChar span
      | .mark mark => .mark mark
      | .perl kind negated => .set (.perl span kind negated)
      | .property name => .set (.property span name)
    return (progress.push cursor.position part, behind)

/-- Reads the rest of a pattern. Every turn takes a character. -/
def readParts : (turns : Nat) → Progress → Cursor → Except Fault Term
  | 0, progress, cursor => .ok (progress.body.term cursor.position)
  | turns + 1, progress, cursor =>
    let cursor := cursor.skip
    match cursor.rest with
    | [] =>
      match progress.frames with
      | [] => .ok (progress.body.term cursor.position)
      | frame :: _ => fail .groupUnclosed frame.opening
    | c :: _ => do
      let (progress, cursor) ← readPart c progress cursor
      readParts turns progress cursor

/-- The structure of a pattern. -/
def Term.ofString (pattern : String) : Except Fault Term :=
  readParts (pattern.length + 1) .start (.ofString pattern)

end Reline.Pattern
