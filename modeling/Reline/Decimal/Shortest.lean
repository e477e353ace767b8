/-
  Reline.Decimal.Shortest

  The shortest decimal numbers that stand for binary floating-point numbers.

  Every real number between the middle of a number and its lower neighbour and the
  middle of it and its upper neighbour is read back as that number; the middles
  belong to it if its significand is even. The coarsest decimal grid with a point
  in that interval gives the shortest decimal number, and of two points the nearer
  one is taken.
-/

import Reline.Decimal.Magnitude

namespace Reline

/-- The number `digits * 10 ^ exponent`. -/
structure Decimal where
  digits : Nat
  exponent : Int
deriving DecidableEq, Repr

/-! ## The interval of a number -/

namespace Magnitude

/-- Four times the significand: the unit in which the middles between neighbours are integers. -/
def quarters (m : Magnitude) : Nat := 4 * m.significand

/-- The lower end of the interval that is read back as a number, in quarters. The lower neighbour of
a power of two is half as far away as the upper one. -/
def lowerEnd (m : Magnitude) : Nat :=
  if m.significand = 1 <<< (precision - 1) && 0 < m.power then m.quarters - 1 else m.quarters - 2

/-- The upper end of the interval. -/
def upperEnd (m : Magnitude) : Nat := m.quarters + 2

/-! ## Decimal grids -/

/-- The multiple of `10 ^ exponent` that is read back as the number and is nearest to it. -/
def onGrid? (m : Magnitude) (exponent : Int) : Option Nat :=
  let scaled (quarters : Nat) : Nat := (quarters <<< m.power) * Nat.pow 10 (-exponent).toNat
  let step := Nat.pow 10 exponent.toNat <<< (places + 2)
  let inside (point : Nat) : Bool :=
    if m.significand % 2 = 0 then
      scaled m.lowerEnd ≤ point * step && point * step ≤ scaled m.upperEnd
    else
      scaled m.lowerEnd < point * step && point * step < scaled m.upperEnd
  let below := scaled m.quarters / step
  let above := below + 1
  let nearest := roundQuotient (scaled m.quarters) step
  if inside nearest then some nearest
  else if inside below then some below
  else if inside above then some above
  else none

/-- The least decimal exponent that is needed. -/
def leastExponent : Int := -324

/-- The shortest decimal number on the grids from `leastExponent + grid` down. -/
def shortestFrom (m : Magnitude) : (grid : Nat) → Decimal
  | 0 => ⟨(m.onGrid? leastExponent).getD 0, leastExponent⟩
  | grid + 1 =>
    match m.onGrid? (leastExponent + (grid + 1)) with
    | some digits => ⟨digits, leastExponent + (grid + 1)⟩
    | none => shortestFrom m grid

/-- The shortest decimal number that is read back as a finite number. -/
def shortest (m : Magnitude) : Decimal :=
  if m.significand = 0 then ⟨0, 0⟩ else m.shortestFrom (maxTen + leastExponent.natAbs)

end Magnitude

/-! ## Notation -/

namespace Decimal

/-- The digits as they are written. -/
def text (d : Decimal) : List Char := Nat.toDigits 10 d.digits

/-- The exponent of the first digit. -/
def leading (d : Decimal) : Int := d.exponent + (d.text.length - 1 : Nat)

/-- The number with a point and without an exponent, with a digit on either side of the point. -/
def positional (d : Decimal) : String :=
  let zeros (n : Nat) : List Char := List.replicate n '0'
  let chars :=
    if 0 ≤ d.exponent then d.text ++ zeros d.exponent.toNat ++ ['.', '0']
    else if 0 ≤ d.leading then
      let whole := d.leading.toNat + 1
      d.text.take whole ++ '.' :: d.text.drop whole
    else '0' :: '.' :: (zeros (d.leading.natAbs - 1) ++ d.text)
  String.ofList chars

/-- The number with one digit in front of the point and a signed exponent; without a point if there
is a single digit. -/
def scientific (d : Decimal) : String :=
  let sign := if d.leading < 0 then "-" else "+"
  let fraction := match d.text.drop 1 with
    | [] => []
    | digits => '.' :: digits
  String.ofList (d.text.take 1 ++ fraction) ++ s!"e{sign}{d.leading.natAbs}"

end Decimal

end Reline
