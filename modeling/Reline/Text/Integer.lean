/-
  Reline.Text.Integer

  Decimal integers as they stand in settings and arguments.

  A sign may stand in front of the digits; nothing else is accepted, not even
  blanks. The characters are read from left to right, and the first one that is
  no digit or takes the value out of range is the fault.
-/

namespace Reline.Text

/-- Why a text is no integer of a range. -/
inductive IntegerError where
  /-- There is no character. -/
  | empty
  /-- A character is no digit. -/
  | invalidDigit
  /-- The value exceeds the greatest of the range. -/
  | tooLarge
  /-- The value is below the least of the range. -/
  | tooSmall
deriving DecidableEq, Repr

/-- The text of the error. -/
def IntegerError.message : IntegerError → String
  | empty => "cannot parse integer from empty string"
  | invalidDigit => "invalid digit found in string"
  | tooLarge => "number too large to fit in target type"
  | tooSmall => "number too small to fit in target type"

/-- The number of digits that follow a number, as long as it stays within `greatest`; beyond it the
fault is `beyond`. -/
def digitsFrom (greatest : Nat) (beyond : IntegerError) (n : Nat) :
    List Char → Except IntegerError Nat
  | [] => .ok n
  | c :: rest =>
    if c.isDigit then
      let n := n * 10 + (c.toNat - '0'.toNat)
      if greatest < n then .error beyond else digitsFrom greatest beyond n rest
    else .error .invalidDigit

/-- The number of at least one digit. -/
def digits (greatest : Nat) (beyond : IntegerError) : List Char → Except IntegerError Nat
  | [] => .error .invalidDigit
  | cs => digitsFrom greatest beyond 0 cs

/-- The greatest unsigned integer of 64 bits. -/
def greatest64 : Nat := 0xFFFF_FFFF_FFFF_FFFF

/-- The greatest signed integer of 32 bits. -/
def greatest32 : Nat := 0x7FFF_FFFF

/-- An unsigned integer of 64 bits. -/
def parseUnsigned64 (text : String) : Except IntegerError Nat :=
  match text.toList with
  | [] => .error .empty
  | '+' :: rest => digits greatest64 .tooLarge rest
  | cs => digits greatest64 .tooLarge cs

/-- A signed integer of 32 bits. -/
def parseSigned32 (text : String) : Except IntegerError Int :=
  match text.toList with
  | [] => .error .empty
  | '+' :: rest => (digits greatest32 .tooLarge rest).map Int.ofNat
  | '-' :: rest => (digits (greatest32 + 1) .tooSmall rest).map fun n => -Int.ofNat n
  | cs => (digits greatest32 .tooLarge cs).map Int.ofNat

end Reline.Text
