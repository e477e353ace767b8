/-
  Reline.Pattern.Bracket

  Reading sets of characters between brackets.

  Sets may be nested and combined. The brackets and operators that wait for what
  follows are kept in a list, the innermost first, so that one loop reads them
  all.
-/

import Reline.Pattern.Escape

namespace Reline.Pattern

/-- What waits for a set to end. -/
inductive SetFrame where
  /-- An opening bracket, and the parts read before it. -/
  | bracket (span : Span) (negated : Bool) (outer : SetTerm)
  /-- An operator, and what stands in front of it. -/
  | operator (operator : SetOperator) (a : SetTerm)

/-- Where the innermost bracket was opened. -/
def innermostBracket : List SetFrame → Span → Span
  | [], otherwise => otherwise
  | .bracket span .. :: _, _ => span
  | .operator .. :: frames, otherwise => innermostBracket frames otherwise

/-- Completes the operator that waits for its second set. -/
def combineWaiting (b : SetTerm) : List SetFrame → SetTerm × List SetFrame
  | .operator operator a :: frames => (.combine operator a b, frames)
  | frames => (b, frames)

/-! ## Parts -/

/-- Reads an escape or a character of a set. -/
def readSetPrimitive (cursor : Cursor) : Read Primitive :=
  match cursor.rest with
  | '\\' :: _ => readEscape cursor
  | c :: _ => .ok (.letter c false, cursor.next, cursor.drop 1)
  | [] => fail .escapeIncomplete cursor.here

/-- A primitive as a part of a set. -/
def Primitive.toSet (primitive : Primitive) (span : Span) : Except Fault SetTerm :=
  match primitive with
  | letter c isByte => .ok (.letter ⟨span, c, isByte⟩)
  | perl kind negated => .ok (.perl span kind negated)
  | property name => .ok (.property span name)
  | anyChar | mark _ => fail .classEscapeInvalid span

/-- A primitive as an end of a range. -/
def Primitive.toLetter (primitive : Primitive) (span : Span) : Except Fault Letter :=
  match primitive with
  | letter c isByte => .ok ⟨span, c, isByte⟩
  | _ => fail .classRangeNotLiteral span

/-- Reads a character, a class or a range of a set. A hyphen in front of the closing bracket or of
another hyphen makes no range. -/
def readSetPart (unclosed : Span) (cursor : Cursor) : Except Fault (SetTerm × Cursor) := do
  let (primitive, span, behind) ← readSetPrimitive cursor
  let cursor := behind.skip
  if cursor.atEnd then fail .classUnclosed unclosed
  else if cursor.rest.head? ≠ some '-' || cursor.second? = some ']'
      || cursor.second? = some '-' then
    return (← primitive.toSet span, cursor)
  else
    let cursor := cursor.step
    if cursor.atEnd then fail .classUnclosed unclosed
    else
      let (lastPrimitive, lastSpan, cursor) ← readSetPrimitive cursor
      let first ← primitive.toLetter span
      let last ← lastPrimitive.toLetter lastSpan
      if last.char < first.char then fail .classRangeInvalid ⟨span.start, lastSpan.stop⟩
      else return (.range first last, cursor)

/-- The class with a name between colons and brackets, if there is one. -/
def namedClass? (cursor : Cursor) : Option (SetTerm × Cursor) := do
  let start := cursor.position
  let cursor ← cursor.pass? ['[', ':']
  let (negated, cursor) := match cursor.pass? ['^'] with
    | some cursor => (true, cursor)
    | none => (false, cursor)
  let name := cursor.rest.takeWhile (· ≠ ':')
  let cursor ← (cursor.drop name.length).pass? [':', ']']
  let kind ← AsciiClass.ofName? (String.ofList name)
  return (.named (cursor.since start) kind negated, cursor)

/-! ## Brackets -/

/-- Takes the hyphens behind an opening bracket, which stand for themselves. Every turn takes a
character. -/
def readHyphens (start : Nat) :
    (turns : Nat) → SetTerm → Cursor → Except Fault (SetTerm × Cursor)
  | 0, set, cursor => .ok (set, cursor)
  | turns + 1, set, cursor =>
    if cursor.rest.head? = some '-' then
      let set := set.push (.letter ⟨cursor.next, '-', false⟩)
      let cursor := cursor.step
      if cursor.atEnd then fail .classUnclosed ⟨start, start⟩
      else readHyphens start turns set cursor
    else .ok (set, cursor)

/-- Reads an opening bracket, with its negation and the characters that stand for themselves only
here. The result is where it is written, whether it is negated, and the parts so far. -/
def openBracket (cursor : Cursor) : Except Fault ((Span × Bool × SetTerm) × Cursor) := do
  let start := cursor.position
  let cursor := cursor.step
  if cursor.atEnd then fail .classUnclosed (cursor.since start)
  else
    let negated := cursor.rest.head? = some '^'
    let cursor := if negated then cursor.step else cursor
    if cursor.atEnd then fail .classUnclosed (cursor.since start)
    else
      let (set, cursor) ← readHyphens start cursor.rest.length (.empty cursor.here) cursor
      if set.isEmpty && cursor.rest.head? = some ']' then
        let set := set.push (.letter ⟨cursor.next, ']', false⟩)
        let cursor := cursor.step
        if cursor.atEnd then fail .classUnclosed (cursor.since start)
        else return ((cursor.since start, negated, set), cursor)
      else return ((cursor.since start, negated, set), cursor)

/-- The operator that is written with a character twice. -/
def SetOperator.ofChar? : Char → Option SetOperator
  | '&' => some intersection
  | '-' => some difference
  | '~' => some symmetricDifference
  | _ => none

/-- The operator at a place. -/
def operatorAt? : List Char → Option SetOperator
  | a :: b :: _ => if a = b then SetOperator.ofChar? a else none
  | _ => none

/-- Reads the parts of a set up to the bracket that closes it. Every turn takes a character. -/
def readSetParts :
    (turns : Nat) → List SetFrame → SetTerm → Cursor → Except Fault (SetTerm × Cursor)
  | 0, frames, _, cursor => fail .classUnclosed (innermostBracket frames cursor.here)
  | turns + 1, frames, set, cursor => do
    let cursor := cursor.skip
    let unclosed := innermostBracket frames cursor.here
    match cursor.rest with
    | [] => fail .classUnclosed unclosed
    | '[' :: _ =>
      match namedClass? cursor with
      | some (part, cursor) => readSetParts turns frames (set.push part) cursor
      | none =>
        let ((span, negated, inner), cursor) ← openBracket cursor
        readSetParts turns (.bracket span negated set :: frames) inner cursor
    | ']' :: _ =>
      let (body, frames) := combineWaiting set frames
      let cursor := cursor.drop 1
      match frames with
      | .bracket span negated outer :: rest =>
        let closed := SetTerm.bracket (cursor.since span.start) negated body
        if rest.isEmpty then return (closed, cursor)
        else readSetParts turns rest (outer.push closed) cursor
      | _ => fail .classUnclosed unclosed
    | rest =>
      match operatorAt? rest with
      | some operator =>
        let (a, frames) := combineWaiting set frames
        let cursor := cursor.drop 2
        readSetParts turns (.operator operator a :: frames) (.empty cursor.here) cursor
      | none =>
        let (part, cursor) ← readSetPart unclosed cursor
        readSetParts turns frames (set.push part) cursor

/-- Reads a set from its opening bracket on. -/
def readSet (cursor : Cursor) : Except Fault (SetTerm × Cursor) := do
  let ((span, negated, set), inside) ← openBracket cursor
  readSetParts cursor.rest.length [.bracket span negated (.empty cursor.here)] set inside

end Reline.Pattern
