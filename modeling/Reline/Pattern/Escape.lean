/-
  Reline.Pattern.Escape

  Reading the smallest parts of a pattern: escapes, anchors, the dot and plain
  characters.
-/

import Reline.Pattern.Cursor
import Reline.Pattern.Term
import Reline.Text.Hexadecimal

namespace Reline.Pattern

/-- A part of a pattern without parts of its own. -/
inductive Primitive where
  | letter (char : Char) (isByte : Bool)
  | anyChar
  | mark (mark : Mark)
  | perl (kind : AsciiClass) (negated : Bool)
  | property (name : String)
deriving DecidableEq, Repr

/-- What was read at a place, where it is written, and the place behind it. -/
abbrev Read (α : Type) := Except Fault (α × Span × Cursor)

/-! ## Hexadecimal escapes -/

/-- The character with a code point. -/
def charOfCodePoint? (n : Nat) : Option Char :=
  if n.isValidChar then some (Char.ofNat n) else none

/-- The number of a fixed count of hexadecimal digits. -/
def readHexDigits : (count : Nat) → (n : Nat) → Cursor → Except Fault (Nat × Cursor)
  | 0, n, cursor => .ok (n, cursor)
  | count + 1, n, cursor =>
    match cursor.rest with
    | [] => fail .escapeIncomplete cursor.here
    | c :: _ =>
      match Text.hexDigit? c with
      | some digit => readHexDigits count (n * 16 + digit) cursor.step
      | none => fail .hexDigitInvalid cursor.next

/-- The number of the hexadecimal digits up to a closing brace, and how many they are. The cursor is
behind the opening brace, which is at `brace`; every turn takes a character. -/
def readHexBraces (brace : Nat) :
    (turns : Nat) → (count n : Nat) → Cursor → Except Fault ((Nat × Nat) × Cursor)
  | 0, _, _, cursor => fail .escapeIncomplete (cursor.since brace)
  | turns + 1, count, n, cursor =>
    match cursor.rest with
    | [] => fail .escapeIncomplete (cursor.since brace)
    | '}' :: _ => .ok ((n, count), cursor)
    | c :: _ =>
      match Text.hexDigit? c with
      | some digit => readHexBraces brace turns (count + 1) (n * 16 + digit) cursor.step
      | none => fail .hexDigitInvalid cursor.next

/-- Reads the character of a hexadecimal escape that began at `start`, from the letter on that says
how many digits there are without braces. -/
def readHex (start : Nat) (letter : Char) (cursor : Cursor) : Read Primitive :=
  let digits := match letter with
    | 'x' => 2
    | 'u' => 4
    | _ => 8
  let cursor := cursor.step
  let first := cursor.position
  match cursor.rest with
  | [] => fail .escapeIncomplete cursor.here
  | '{' :: inside =>
    match readHexBraces first (inside.length + 1) 0 0 cursor.step with
    | .error e => .error e
    | .ok ((n, count), close) =>
      let cursor := close.step
      if count = 0 then fail .hexEmpty (cursor.since first)
      else
        match charOfCodePoint? n with
        | some c => .ok (.letter c false, cursor.since start, cursor)
        | none => fail .hexInvalid ⟨first + 1, close.position⟩
  | _ =>
    match readHexDigits digits 0 cursor with
    | .error e => .error e
    | .ok (n, cursor) =>
      match charOfCodePoint? n with
      | some c => .ok (.letter c (letter = 'x'), cursor.since start, cursor)
      | none => fail .hexInvalid (cursor.since first)

/-! ## Properties -/

/-- The characters up to a closing brace. Every turn takes a character. -/
def readName : (turns : Nat) → (back : List Char) → Cursor → Except Fault (List Char × Cursor)
  | 0, _, cursor => fail .escapeIncomplete cursor.here
  | turns + 1, back, cursor =>
    match cursor.rest with
    | [] => fail .escapeIncomplete cursor.here
    | '}' :: _ => .ok (back.reverse, cursor)
    | c :: _ => readName turns (c :: back) cursor.step

/-- Reads the name of a property in an escape that began at `start`, from the letter of the escape
on. -/
def readProperty (start : Nat) (cursor : Cursor) : Read Primitive :=
  let cursor := cursor.step
  match cursor.rest with
  | [] => fail .escapeIncomplete cursor.here
  | '{' :: inside =>
    match readName (inside.length + 1) [] cursor.step with
    | .error e => .error e
    | .ok (name, close) =>
      let cursor := close.drop 1
      .ok (.property (String.ofList name), cursor.since start, cursor)
  | '\\' :: _ => fail .propertyClassInvalid cursor.next
  | c :: _ =>
    let cursor := cursor.step
    .ok (.property (String.ofList [c]), cursor.since start, cursor)

/-! ## Word boundaries -/

/-- A character of the name of a special word boundary. -/
def isBoundaryChar (c : Char) : Bool := c.isAlpha || c = '-'

/-- The leading characters of the name of a special word boundary. Every turn takes a character. -/
def readBoundaryName : (turns : Nat) → (back : List Char) → Cursor → List Char × Cursor
  | 0, back, cursor => (back.reverse, cursor)
  | turns + 1, back, cursor =>
    match cursor.rest with
    | c :: _ =>
      if isBoundaryChar c then readBoundaryName turns (c :: back) cursor.step
      else (back.reverse, cursor)
    | [] => (back.reverse, cursor)

/-- The word boundary with a name. -/
def boundaryOfName? : String → Option Mark
  | "start" => some .wordStart
  | "end" => some .wordEnd
  | "start-half" => some .wordStartHalf
  | "end-half" => some .wordEndHalf
  | _ => none

/-- Reads what may stand between braces behind a word boundary that began at `start`. What does not
begin like a name is left, because it may be the count of a repetition. -/
def readBoundary (start : Nat) (cursor : Cursor) : Read Primitive :=
  let plain : Read Primitive := .ok (.mark .wordEdge, cursor.since start, cursor)
  match cursor.rest with
  | '{' :: inside =>
    let first := cursor.step
    match first.rest with
    | [] => fail .wordBoundaryIncomplete (first.since start)
    | c :: _ =>
      if isBoundaryChar c then
        let (name, close) := readBoundaryName inside.length [] first
        if close.rest.head? = some '}' then
          match boundaryOfName? (String.ofList name) with
          | some mark =>
            let behind := close.drop 1
            .ok (.mark mark, behind.since start, behind)
          | none => fail .wordBoundaryUnrecognized (close.since first.position)
        else fail .wordBoundaryUnclosed (close.since cursor.position)
      else plain
  | _ => plain

/-! ## Escapes -/

/-- Whether a character is written behind a backslash to stand for itself. -/
def isEscapable (c : Char) : Bool :=
  c.toNat < 0x80 && ! c.isAlphanum && c ≠ '<' && c ≠ '>'

/-- What the letter of a short escape stands for. -/
def shortEscape? : Char → Option Primitive
  | 'a' => some (.letter '\x07' false)
  | 'f' => some (.letter '\x0c' false)
  | 't' => some (.letter '\t' false)
  | 'n' => some (.letter '\n' false)
  | 'r' => some (.letter '\r' false)
  | 'v' => some (.letter '\x0b' false)
  | 'A' => some (.mark .textStart)
  | 'z' => some (.mark .textEnd)
  | 'B' => some (.mark .noWordEdge)
  | '<' => some (.mark .wordStart)
  | '>' => some (.mark .wordEnd)
  | 'd' => some (.perl .digit false)
  | 's' => some (.perl .space false)
  | 'w' => some (.perl .word false)
  | 'D' => some (.perl .digit true)
  | 'S' => some (.perl .space true)
  | 'W' => some (.perl .word true)
  | c => if isEscapable c then some (.letter c false) else none

/-- Reads an escape from its backslash on. -/
def readEscape (cursor : Cursor) : Read Primitive :=
  let start := cursor.position
  let cursor := cursor.drop 1
  let behind := cursor.drop 1
  match cursor.rest with
  | [] => fail .escapeIncomplete (cursor.since start)
  | c :: _ =>
    if c.isDigit then fail .unsupportedBackreference (behind.since start)
    else if c = 'x' || c = 'u' || c = 'U' then readHex start c cursor
    else if c = 'p' || c = 'P' then readProperty start cursor
    else if c = 'b' then readBoundary start behind
    else
      match shortEscape? c with
      | some primitive => .ok (primitive, behind.since start, behind)
      | none => fail .escapeUnrecognized (behind.since start)

/-- Reads a part of a pattern without parts of its own. -/
def readPrimitive (c : Char) (cursor : Cursor) : Read Primitive :=
  let behind := cursor.drop 1
  match c with
  | '\\' => readEscape cursor
  | '.' => .ok (.anyChar, cursor.next, behind)
  | '^' => .ok (.mark .caret, cursor.next, behind)
  | '$' => .ok (.mark .dollar, cursor.next, behind)
  | _ => .ok (.letter c false, cursor.next, behind)

end Reline.Pattern
