/-
  Reline.Json.Error

  Faults of JSON text, and of well-formed text that holds the wrong data.

  A fault names its cause and how many bytes follow the place where it was
  noticed; the column is counted from the end of the text, because a reader only
  keeps the rest of its input.
-/

import Reline.Text.Utf8

namespace Reline.Json

/-- The three classes of faults. -/
inductive Category where
  /-- The text ends inside a value. -/
  | eof
  /-- A well-formed value of the wrong type, range or shape. -/
  | data
  /-- The text is not JSON. -/
  | malformed
deriving DecidableEq, Repr

/-- What is wrong with a text. -/
inductive Cause where
  | endOfList
  | endOfObject
  | endOfString
  | endOfValue
  | expectedColon
  | expectedListComma
  | expectedObjectComma
  | expectedIdent
  | expectedValue
  | keyMustBeString
  | trailingComma
  | trailingCharacters
  | controlCharacter
  | invalidEscape
  | loneSurrogate
  | endOfSurrogate
  | invalidNumber
  | numberOutOfRange
  /-- A value of one type stands where another is expected. -/
  | wrongType (found expected : String)
  /-- A value of the right type lies outside the expected range. -/
  | wrongValue (found expected : String)
  /-- A list ends after too few elements. -/
  | tooShort (length : Nat) (expected : String)
  /-- An object lacks a field. -/
  | missingField (name : String)
  /-- An object has a field twice. -/
  | duplicateField (name : String)
deriving DecidableEq, Repr

namespace Cause

/-- The class that a cause belongs to. -/
def category : Cause → Category
  | endOfList | endOfObject | endOfString | endOfValue => .eof
  | wrongType .. | wrongValue .. | tooShort .. | missingField _ | duplicateField _ => .data
  | _ => .malformed

/-- The text of a cause. -/
def message : Cause → String
  | endOfList => "EOF while parsing a list"
  | endOfObject => "EOF while parsing an object"
  | endOfString => "EOF while parsing a string"
  | endOfValue => "EOF while parsing a value"
  | expectedColon => "expected `:`"
  | expectedListComma => "expected `,` or `]`"
  | expectedObjectComma => "expected `,` or `\x7d`"
  | expectedIdent => "expected ident"
  | expectedValue => "expected value"
  | keyMustBeString => "key must be a string"
  | trailingComma => "trailing comma"
  | trailingCharacters => "trailing characters"
  | controlCharacter => "control character (\\u0000-\\u001F) found while parsing a string"
  | invalidEscape => "invalid escape"
  | loneSurrogate => "lone leading surrogate in hex escape"
  | endOfSurrogate => "unexpected end of hex escape"
  | invalidNumber => "invalid number"
  | numberOutOfRange => "number out of range"
  | wrongType found expected => s!"invalid type: {found}, expected {expected}"
  | wrongValue found expected => s!"invalid value: {found}, expected {expected}"
  | tooShort length expected => s!"invalid length {length}, expected {expected}"
  | missingField name => s!"missing field `{name}`"
  | duplicateField name => s!"duplicate field `{name}`"

end Cause

/-- A fault in a text. -/
structure Error where
  /-- What is wrong. -/
  cause : Cause
  /-- How many bytes of the text follow the place where it was noticed. -/
  left : Nat
deriving DecidableEq, Repr

namespace Error

/-- The class of the fault. -/
def category (e : Error) : Category := e.cause.category

/-- The text of a fault in `line`. -/
def message (e : Error) (line : String) : String :=
  s!"{e.cause.message} at line 1 column {line.utf8ByteSize - e.left}"

end Error

/-- A value read from the start of a text and the rest of the text, or a fault. -/
abbrev Result (α : Type) := Except Error (α × List Char)

/-- A fault noticed when all before `rest` was read. -/
def failBefore {α : Type} (cause : Cause) (rest : List Char) : Except Error α :=
  .error ⟨cause, Text.Utf8.byteLength rest⟩

/-- A fault in the first byte of `rest`, or in the end of the text. -/
def failAt {α : Type} (cause : Cause) (rest : List Char) : Except Error α :=
  .error ⟨cause, Text.Utf8.byteLength rest - 1⟩

end Reline.Json
