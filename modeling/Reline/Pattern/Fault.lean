/-
  Reline.Pattern.Fault

  Faults of the text of a pattern, and the report that shows where they are.
-/

namespace Reline.Pattern

/-- A stretch of a text: how many characters are in front of its first, and of the one behind it. -/
structure Span where
  start : Nat
  stop : Nat
deriving DecidableEq, Repr

/-- What is wrong with a pattern. -/
inductive Cause where
  | caseUnavailable
  | classEscapeInvalid
  | classRangeInvalid
  | classRangeNotLiteral
  | classUnclosed
  | countEmpty
  | countInvalid
  | countRangeInvalid
  | countUnclosed
  | escapeIncomplete
  | escapeUnrecognized
  | flagDangling
  | flagDuplicate
  | flagIncomplete
  | flagNegationRepeated
  | flagUnrecognized
  | groupNameDuplicate
  | groupNameEmpty
  | groupNameInvalid
  | groupNameUnclosed
  | groupUnclosed
  | groupUnopened
  | hexDigitInvalid
  | hexEmpty
  | hexInvalid
  | invalidUtf8
  | namedClassNotFound
  /-- Parts stand inside of each other more often than `limit` times. -/
  | nestedTooDeeply (limit : Nat)
  | propertyClassInvalid
  | propertyNotFound
  | propertyValueNotFound
  | repetitionMissing
  | unicodeNotAllowed
  | unsupportedBackreference
  | unsupportedLookAround
  | wordBoundaryIncomplete
  | wordBoundaryUnclosed
  | wordBoundaryUnrecognized
deriving DecidableEq, Repr

/-- The text of a cause. -/
def Cause.message : Cause → String
  | caseUnavailable => "Unicode-aware case insensitivity matching is not available " ++
      "(make sure the unicode-case feature is enabled)"
  | classEscapeInvalid => "invalid escape sequence found in character class"
  | classRangeInvalid => "invalid character class range, the start must be <= the end"
  | classRangeNotLiteral => "invalid range boundary, must be a literal"
  | classUnclosed => "unclosed character class"
  | countEmpty => "repetition quantifier expects a valid decimal"
  | countInvalid => "decimal literal invalid"
  | countRangeInvalid => "invalid repetition count range, the start must be <= the end"
  | countUnclosed => "unclosed counted repetition"
  | escapeIncomplete => "incomplete escape sequence, reached end of pattern prematurely"
  | escapeUnrecognized => "unrecognized escape sequence"
  | flagDangling => "dangling flag negation operator"
  | flagDuplicate => "duplicate flag"
  | flagIncomplete => "expected flag but got end of regex"
  | flagNegationRepeated => "flag negation operator repeated"
  | flagUnrecognized => "unrecognized flag"
  | groupNameDuplicate => "duplicate capture group name"
  | groupNameEmpty => "empty capture group name"
  | groupNameInvalid => "invalid capture group character"
  | groupNameUnclosed => "unclosed capture group name"
  | groupUnclosed => "unclosed group"
  | groupUnopened => "unopened group"
  | hexDigitInvalid => "invalid hexadecimal digit"
  | hexEmpty => "hexadecimal literal empty"
  | hexInvalid => "hexadecimal literal is not a Unicode scalar value"
  | invalidUtf8 => "pattern can match invalid UTF-8"
  | namedClassNotFound => "Unicode-aware Perl class not found " ++
      "(make sure the unicode-perl feature is enabled)"
  | nestedTooDeeply limit =>
    s!"exceed the maximum number of nested parentheses/brackets ({limit})"
  | propertyClassInvalid => "invalid Unicode character class"
  | propertyNotFound => "Unicode property not found"
  | propertyValueNotFound => "Unicode property value not found"
  | repetitionMissing => "repetition operator missing expression"
  | unicodeNotAllowed => "Unicode not allowed here"
  | unsupportedBackreference => "backreferences are not supported"
  | unsupportedLookAround =>
    "look-around, including look-ahead and look-behind, is not supported"
  | wordBoundaryIncomplete => "found either the beginning of a special word boundary or a " ++
      "bounded repetition on a \\b with an opening brace, but no closing brace"
  | wordBoundaryUnclosed => "special word boundary assertion is either unclosed or contains " ++
      "an invalid character"
  | wordBoundaryUnrecognized => "unrecognized special word boundary assertion, valid choices " ++
      "are: start, end, start-half or end-half"

/-- A fault in a pattern. -/
structure Fault where
  /-- What is wrong. -/
  cause : Cause
  /-- Where it is. -/
  span : Span
  /-- What it clashes with, if that stands somewhere else. -/
  earlier : Option Span
deriving DecidableEq, Repr

/-- A fault in one place. -/
def fail {α : Type} (cause : Cause) (span : Span) : Except Fault α :=
  .error ⟨cause, span, none⟩

/-! ## Reports -/

/-- A place in a text: its line and its column, both from zero. -/
structure Place where
  line : Nat
  column : Nat
deriving DecidableEq, Repr

/-- The place in front of a character. -/
def Place.ofOffset (pattern : List Char) (offset : Nat) : Place :=
  (pattern.take offset).foldl
    (fun place c => if c = '\n' then ⟨place.line + 1, 0⟩ else ⟨place.line, place.column + 1⟩)
    ⟨0, 0⟩

/-- Appends marks below the columns from `first` up to `last`, at least one. -/
def mark (marks : List Char) (first last : Nat) : List Char :=
  marks ++ List.replicate (first - marks.length) ' '
    ++ List.replicate (max 1 (last - first)) '^'

namespace Fault

/-- The spans that are shown, in the order of their places. -/
def spans (fault : Fault) : List Span :=
  match fault.earlier with
  | none => [fault.span]
  | some earlier =>
    if earlier.start ≤ fault.span.start then [earlier, fault.span] else [fault.span, earlier]

/-- The places of the spans that are shown. -/
def places (fault : Fault) (pattern : List Char) : List (Place × Place) :=
  fault.spans.map fun span => (.ofOffset pattern span.start, .ofOffset pattern span.stop)

/-- The marks below a line; none if no span lies in it. -/
def marks (fault : Fault) (pattern : List Char) (line : Nat) : List Char :=
  ((fault.places pattern).filter fun (first, last) =>
    first.line = line && last.line = line).foldl
      (fun marks (first, last) => mark marks first.column last.column) []

/-- The lines of a pattern. A line end may have a carriage return in front; text behind the last
line end is a line as well. -/
def lines (pattern : String) : List String :=
  let all := pattern.splitOn "\n"
  let ended := all.dropLast.map fun line =>
    if line.toList.getLast? = some '\r' then String.ofList line.toList.dropLast else line
  ended ++ (all.getLast?.toList.filter fun line => line ≠ "")

/-- A text that is filled with blanks on the left. -/
def padLeft (width : Nat) (text : String) : String :=
  String.ofList (List.replicate (width - text.length) ' ') ++ text

/-- A pattern with marks below the spans of the fault. If there are several lines, they are
numbered. -/
def notated (fault : Fault) (pattern : String) : String :=
  let numbered := pattern.toList.contains '\n'
  let width := (toString (pattern.toList.count '\n' + 1)).length
  let margin (line : Nat) : String :=
    if numbered then s!"{padLeft width (toString (line + 1))}: " else "    "
  let blank := String.ofList (List.replicate (if numbered then width + 2 else 4) ' ')
  String.join <| (lines pattern).zipIdx.map fun (text, line) =>
    margin line ++ text ++ "\n" ++
      match fault.marks pattern.toList line with
      | [] => ""
      | marks => blank ++ String.ofList marks ++ "\n"

/-- What is shown about the spans that run over several lines. -/
def stretches (fault : Fault) (pattern : List Char) : String :=
  let long := (fault.places pattern).filter fun (first, last) => first.line ≠ last.line
  if long = [] then ""
  else "\n".intercalate (long.map fun (first, last) =>
    s!"on line {first.line + 1} (column {first.column + 1}) " ++
      s!"through line {last.line + 1} (column {last.column})") ++ "\n"

/-- The report of a fault in a pattern. -/
def report (fault : Fault) (pattern : String) : String :=
  let divider := String.ofList (List.replicate 79 '~') ++ "\n"
  let shown := fault.notated pattern
  let shown :=
    if pattern.toList.contains '\n' then
      divider ++ shown ++ divider ++ fault.stretches pattern.toList
    else shown
  s!"regex parse error:\n{shown}error: {fault.cause.message}"

end Fault

end Reline.Pattern
