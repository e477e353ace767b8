/-
  Reline.Json.Number

  Numbers of JSON text.

  The grammar of a literal is read apart from its value. A literal with a
  fraction or an exponent, a negative zero, and an integer beyond 64 bits stand
  for binary floating-point numbers. Their digits count as long as they fit into
  64 bits, and the power of ten is applied in rounded steps; a literal whose value
  then is not finite is out of range.
-/

import Reline.Decimal.Shortest
import Reline.Json.Error

namespace Reline.Json

/-- The parts of a number literal, digits as they are written. -/
structure Literal where
  /-- Whether a minus sign stands in front. -/
  negative : Bool
  /-- The digits before the point. -/
  whole : List Char
  /-- The digits behind the point; none if there is no point. -/
  fraction : List Char
  /-- Whether the exponent is negative, and its digits; none if there is no exponent. -/
  exponent : Bool × List Char
deriving DecidableEq, Repr

/-! ## Reading a literal -/

/-- Digits at the start of a text, and the rest. -/
def spanDigits (s : List Char) : List Char × List Char :=
  s.span Char.isDigit

/-- Reads the exponent behind its letter. A missing digit is the fault `atEnd` at the end of the
text. -/
def readExponent (atEnd : Cause) (s : List Char) : Result (Bool × List Char) :=
  let (negative, s) : Bool × List Char := match s with
    | '+' :: rest => (false, rest)
    | '-' :: rest => (true, rest)
    | _ => (false, s)
  match spanDigits s with
  | ([], []) => failAt atEnd []
  | ([], rest) => failAt .invalidNumber rest
  | (digits, rest) => .ok ((negative, digits), rest)

/-- Reads an exponent if one follows the digits of a literal. -/
def readTail (atEnd : Cause) (literal : Literal) (s : List Char) : Result Literal :=
  match s with
  | 'e' :: rest | 'E' :: rest =>
    (readExponent atEnd rest).map fun (exponent, rest) => ({ literal with exponent }, rest)
  | _ => .ok (literal, s)

/-- Reads a fraction and an exponent if they follow the whole part of a literal. -/
def readFraction (atEnd : Cause) (literal : Literal) (s : List Char) : Result Literal :=
  match s with
  | '.' :: rest =>
    match spanDigits rest with
    | ([], []) => failAt atEnd []
    | ([], rest) => failAt .invalidNumber rest
    | (fraction, rest) => readTail atEnd { literal with fraction } rest
  | _ => readTail atEnd literal s

/-- Reads a number literal; where the text ends although a digit is needed, the fault is `atEnd`. -/
def readLiteral (atEnd : Cause) (s : List Char) : Result Literal :=
  let (negative, s) : Bool × List Char := match s with
    | '-' :: rest => (true, rest)
    | _ => (false, s)
  match spanDigits s with
  | ([], []) => failAt atEnd []
  | ([], rest) => failAt .invalidNumber rest
  | ('0' :: digit :: digits, rest) => failAt .invalidNumber (digit :: digits ++ rest)
  | (whole, rest) => readFraction atEnd ⟨negative, whole, [], (false, [])⟩ rest

/-! ## Values -/

/-- What a literal stands for. -/
inductive Number where
  /-- An integer of 64 bits, with or without a sign. -/
  | integer (value : Int)
  /-- A floating-point number; zero has a sign as well. -/
  | float (negative : Bool) (magnitude : Magnitude)
deriving DecidableEq, Repr

/-- Appends decimal digits to a number until one would carry it beyond `bound`; the result includes
the digits left over. -/
def appendDigits (bound n : Nat) : List Char → Nat × List Char
  | [] => (n, [])
  | c :: rest =>
    let next := n * 10 + (c.toNat - '0'.toNat)
    if next ≤ bound then appendDigits bound next rest else (n, c :: rest)

namespace Literal

/-- The greatest significand. -/
def maxSignificand : Nat := 0xFFFF_FFFF_FFFF_FFFF

/-- The greatest exponent that can be written. -/
def maxExponent : Nat := 0x7FFF_FFFF

/-- The significant digits as one number, and the exponent of its last digit before the written
exponent is added. Digits of the whole part that are left out count as zeros; those of the fraction
are dropped. -/
def significand (literal : Literal) : Nat × Int :=
  let (n, zeros) := appendDigits maxSignificand 0 literal.whole
  let (n, dropped) := appendDigits maxSignificand n literal.fraction
  (n, (zeros.length : Int) - (literal.fraction.length - dropped.length : Nat))

/-- The integer that a literal stands for; `none` if it stands for a floating-point number. -/
def integer? (literal : Literal) : Option Int :=
  match literal.fraction, literal.exponent.2, appendDigits maxSignificand 0 literal.whole with
  | [], [], (n, []) =>
    if literal.negative then
      if 0 < n ∧ n ≤ 0x8000_0000_0000_0000 then some (-n) else none
    else some n
  | _, _, _ => none

/-- The magnitude of a literal in front of `rest`, as a floating-point number. An exponent that is
too long is not read to its end, unless it makes the number zero or that is zero anyway. -/
def magnitude (literal : Literal) (rest : List Char) : Except Error Magnitude :=
  let (significand, shift) := literal.significand
  let (shrinks, digits) := literal.exponent
  match appendDigits maxExponent 0 digits with
  | (exponent, []) =>
    let exponent : Int := if shrinks then shift - exponent else shift + exponent
    match (Magnitude.ofNat significand).scale exponent with
    | some m => .ok m
    | none => failBefore .numberOutOfRange rest
  | (_, _ :: unread) =>
    if significand = 0 || shrinks then .ok .zero
    else failBefore .numberOutOfRange (unread ++ rest)

end Literal

/-- Reads a number; one that is not finite is a fault. -/
def readNumber (s : List Char) : Result Number :=
  match readLiteral .endOfValue s with
  | .error e => .error e
  | .ok (literal, rest) =>
    match literal.integer? with
    | some n => .ok (.integer n, rest)
    | none => (literal.magnitude rest).map fun m => (.float literal.negative m, rest)

/-- Passes over a number of any size. -/
def skipNumber (s : List Char) : Result Unit :=
  (readLiteral .invalidNumber s).map fun (_, rest) => ((), rest)

/-! ## Descriptions -/

namespace Number

/-- Whether a number with a given exponent of its first digit is written without an exponent. -/
def isPositional (leading : Int) : Bool := -5 ≤ leading && leading ≤ 15

/-- The shortest text of a floating-point number. -/
def floatText (negative : Bool) (magnitude : Magnitude) : String :=
  let d := magnitude.shortest
  (if negative then "-" else "")
    ++ if isPositional d.leading then d.positional else d.scientific

/-- The kind of a number and its text. -/
def description : Number → String
  | integer n => s!"integer `{n}`"
  | float negative magnitude => s!"floating point `{floatText negative magnitude}`"

end Number

end Reline.Json
