/-
  Reline.Manifest

  Manifests of decompiler output: one unit per line.

  Only a line feed ends a line, and one carriage return in front of it belongs
  to the line end. Blank lines are counted and passed over. The first line that
  is neither blank nor a unit decides the outcome.
-/

import Reline.ClassUnit
import Reline.Failure
import Reline.Text.Blank

namespace Reline.Manifest

/-! ## Lines -/

/-- A line without the carriage return that belongs to its end. -/
def dropReturn (line : Bytes) : Bytes :=
  if line.getLast? = some 0x0D then line.dropLast else line

/-- The lines of a byte sequence, given the bytes of the current line in reverse and the lines
before it in reverse. -/
def linesOnto (before : List Bytes) (current : Bytes) : Bytes → List Bytes
  | [] => (if current.isEmpty then before else current.reverse :: before).reverse
  | b :: rest =>
    if b = 0x0A then linesOnto (dropReturn current.reverse :: before) [] rest
    else linesOnto before (b :: current) rest

/-- The lines of a byte sequence; what follows the last line feed is a line unless it is empty. -/
def lines (bytes : Bytes) : List Bytes :=
  linesOnto [] [] bytes

/-! ## Units -/

/-- Why a manifest cannot be read. -/
inductive Error where
  /-- A line is not UTF-8. -/
  | notUtf8
  /-- A line, counted from one, is neither blank nor a unit. -/
  | malformedUnit (number : Nat) (line : String) (cause : Json.Error)
deriving DecidableEq, Repr

/-- The failure to report. -/
def Error.failure : Error → Failure
  | notUtf8 => .ofText "stream did not contain valid UTF-8"
  | malformedUnit number line cause =>
    .during s!"Malformed decompile unit on line {number}" (.ofText (cause.message line))

/-- The unit of a line, counted from one; `none` if the line is blank. -/
def unitOfLine (number : Nat) (line : Bytes) : Except Error (Option ClassUnit) :=
  match Text.Utf8.decode? line with
  | none => .error .notUtf8
  | some text =>
    if Text.isBlankText text then .ok none
    else
      match ClassUnit.parse text with
      | .ok unit => .ok (some unit)
      | .error cause => .error (.malformedUnit number text cause)

/-- The units of lines, the first of which has a number; `found` holds those before it in
reverse. -/
def unitsOnto (found : List ClassUnit) (number : Nat) : List Bytes → Except Error (List ClassUnit)
  | [] => .ok found.reverse
  | line :: rest => do
    match ← unitOfLine number line with
    | some unit => unitsOnto (unit :: found) (number + 1) rest
    | none => unitsOnto found (number + 1) rest

/-- The units of a manifest. -/
def parseUnits (bytes : Bytes) : Except Error (List ClassUnit) :=
  unitsOnto [] 1 (lines bytes)

end Reline.Manifest
