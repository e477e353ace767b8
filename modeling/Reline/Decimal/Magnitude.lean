/-
  Reline.Decimal.Magnitude

  Non-negative binary floating-point numbers of 53 significant bits.

  Every operation gives the representable number that is nearest to the exact
  result, and of two that are equally near the even one. The powers of two have no
  upper end here; a result too great for the format is one that is not finite.
-/

namespace Reline

/-- The number `significand * 2 ^ (power - 1074)`. Below the least power every significand has its
full number of bits. -/
structure Magnitude where
  significand : Nat
  power : Nat
deriving DecidableEq, Repr

namespace Magnitude

/-- The number of bits of a significand. -/
def precision : Nat := 53

/-- How many binary places behind the point the least power reaches. -/
def places : Nat := 1074

/-- The power of the greatest finite numbers. -/
def maxPower : Nat := 2045

/-- Zero. -/
def zero : Magnitude := ⟨0, 0⟩

/-- Whether a number lies inside the format. -/
def isFinite (m : Magnitude) : Bool := m.power ≤ maxPower

/-! ## Rounding -/

/-- The integer nearest to a quotient; a half goes to the even neighbour. -/
def roundQuotient (num den : Nat) : Nat :=
  let quotient := num / den
  let twice := 2 * (num % den)
  if den < twice || (twice = den && quotient % 2 = 1) then quotient + 1 else quotient

/-- The number nearest to a quotient. -/
def ofQuotient (num den : Nat) : Magnitude :=
  let num := num <<< places
  let power := (num / den).log2 + 1 - precision
  let significand := roundQuotient num (den <<< power)
  if significand < 1 <<< precision then ⟨significand, power⟩ else ⟨significand / 2, power + 1⟩

/-- The number nearest to an integer. -/
def ofNat (n : Nat) : Magnitude := ofQuotient n 1

/-- The product of two numbers. -/
def mul (a b : Magnitude) : Magnitude :=
  ofQuotient ((a.significand * b.significand) <<< (a.power + b.power)) (1 <<< (2 * places))

/-- The quotient of a number and one that is not zero. -/
def div (a b : Magnitude) : Magnitude :=
  ofQuotient (a.significand <<< a.power) (b.significand <<< b.power)

/-! ## Decimal scaling -/

/-- The greatest power of ten that is finite. -/
def maxTen : Nat := 308

/-- The number nearest to a power of ten. -/
def tenTo (exponent : Nat) : Magnitude := ofNat (Nat.pow 10 exponent)

/-- A number times a power of ten, in steps of one multiplication or division by at most the
greatest finite power each, every step rounded; `none` if the product is not finite. -/
def scale (m : Magnitude) (exponent : Int) : Option Magnitude :=
  if exponent < -(maxTen : Int) then
    if m = zero then some m else scale (m.div (tenTo maxTen)) (exponent + maxTen)
  else if exponent < 0 then some (m.div (tenTo exponent.natAbs))
  else if exponent ≤ maxTen then
    let product := m.mul (tenTo exponent.toNat)
    if product.isFinite then some product else none
  else if m = zero then some m
  else none
termination_by exponent.natAbs
decreasing_by simp only [maxTen] at *; omega

end Magnitude

end Reline
