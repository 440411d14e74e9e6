import Stencil.Decimal.Basic

/-! Numbers of the binary format with 64 bits, as exact values. A finite
magnitude is a significand times a power of two, and every operation is the
exact operation followed by one rounding: to the nearest magnitude, and of two
that are equally near to the one with the even significand. -/

namespace Stencil

/-- A finite magnitude, `significand * 2 ^ exponent`. In its standard form the
significand has 53 bits, or fewer at the smallest exponent. -/
structure Magnitude where
  significand : Nat
  exponent : Int
deriving DecidableEq, Repr

namespace Magnitude

/-- The smallest significand of full length. -/
def fullSignificand : Nat := 1 <<< 52

/-- The exponent of the smallest magnitudes. -/
def minExponent : Int := -1074

/-- The exponent of the largest magnitudes. -/
def maxExponent : Int := 971

/-- No magnitude. -/
def zero : Magnitude := ⟨0, minExponent⟩

/-- A quotient rounded to the nearest whole number, halves to the even one. -/
def divideHalfEven (numerator denominator : Nat) : Nat :=
  let quotient := numerator / denominator
  let doubled := 2 * (numerator % denominator)
  if denominator < doubled ∨ denominator = doubled ∧ quotient % 2 = 1 then quotient + 1 else quotient

/-- `numerator * 2 ^ shift / denominator` as a fraction of natural numbers. -/
def shifted (numerator denominator : Nat) (shift : Int) : Nat × Nat :=
  (numerator <<< shift.toNat, denominator <<< (-shift).toNat)

/-- The exponent of the largest power of two that is not above a positive fraction. -/
def floorLog2 (numerator denominator : Nat) : Int :=
  let guess : Int := numerator.log2 - denominator.log2
  let (high, low) := shifted numerator denominator (-guess)
  if low ≤ high then guess else guess - 1

/-- The magnitude nearest to a fraction; none if that is beyond the largest. -/
def ofFraction? (numerator denominator : Nat) : Option Magnitude :=
  if numerator = 0 then some zero
  else
    let exponent := max (floorLog2 numerator denominator - 52) minExponent
    let (high, low) := shifted numerator denominator (-exponent)
    let significand := divideHalfEven high low
    let rounded : Magnitude :=
      if significand = 2 * fullSignificand then ⟨fullSignificand, exponent + 1⟩
      else ⟨significand, exponent⟩
    if maxExponent < rounded.exponent then none else some rounded

/-- A product, rounded. -/
def mul? (left right : Magnitude) : Option Magnitude :=
  let (high, low) := shifted (left.significand * right.significand) 1 (left.exponent + right.exponent)
  ofFraction? high low

/-- A quotient by a magnitude other than zero, rounded. -/
def div? (left right : Magnitude) : Option Magnitude :=
  let (high, low) := shifted left.significand right.significand (left.exponent - right.exponent)
  ofFraction? high low

end Magnitude

/-- A number of the binary format with 64 bits. -/
inductive Binary64 where
  | finite (negative : Bool) (magnitude : Magnitude)
  | infinite (negative : Bool)
  | nan
deriving DecidableEq, Repr

namespace Binary64

/-- The number nearest to a fraction. -/
def ofFraction (negative : Bool) (numerator denominator : Nat) : Binary64 :=
  match Magnitude.ofFraction? numerator denominator with
  | some magnitude => .finite negative magnitude
  | none => .infinite negative

/-- The number nearest to `significand * 10 ^ exponent`. Exponents far out are
decided by the number of digits, without computing the power. -/
def ofDecimal (negative : Bool) (significand : Nat) (exponent : Int) : Binary64 :=
  if significand = 0 then .finite negative Magnitude.zero
  else if 400 < exponent then .infinite negative
  else if exponent + significand.log2 < -400 then .finite negative Magnitude.zero
  else ofFraction negative (significand * Decimal.power exponent.toNat)
    (Decimal.power (-exponent).toNat)

end Binary64
end Stencil
