import Stencil.Decimal.Basic
import Stencil.Binary64.Basic

/-! The shortest decimal form of a magnitude: the fewest digits that read back
as the same magnitude, and of the numbers with that many digits the nearest.
On the grid of the numbers with a given number of digits only the two
neighbours of the magnitude need to be looked at. -/

namespace Stencil.Decimal

/-- Which neighbour is taken when both are equally near. -/
inductive Tie where
  | even
  | up
deriving DecidableEq, Repr

/-- A decimal number, `digits * 10 ^ exponent`. -/
structure Scaled where
  digits : Nat
  exponent : Int
deriving DecidableEq, Repr

/-- A magnitude over a common denominator, with the numbers that read back as
it: those between `low` and `high`, with the ends if `closed`. -/
structure Interval where
  low : Nat
  value : Nat
  high : Nat
  denominator : Nat
  closed : Bool

/-- The interval of a magnitude reaches halfway to its neighbours. Below a power
of two the neighbour is only half as far away. -/
def Interval.ofMagnitude (magnitude : Magnitude) : Interval :=
  let scale := 1 <<< (magnitude.exponent - 2).toNat
  let below :=
    if magnitude.significand = Magnitude.fullSignificand ∧ Magnitude.minExponent < magnitude.exponent
    then 1 else 2
  { low := (4 * magnitude.significand - below) * scale
    value := 4 * magnitude.significand * scale
    high := (4 * magnitude.significand + 2) * scale
    denominator := 1 <<< (2 - magnitude.exponent).toNat
    closed := magnitude.significand % 2 = 0 }

/-- Whether a fraction, over ten to the power `-exponent` and the interval's
denominator, lies in the interval. -/
def Interval.contains (interval : Interval) (scaled : Scaled) : Bool :=
  let number := scaled.digits * power scaled.exponent.toNat * interval.denominator
  let unit := power (-scaled.exponent).toNat
  if interval.closed then interval.low * unit ≤ number && number ≤ interval.high * unit
  else interval.low * unit < number && number < interval.high * unit

/-- The number of digits before the decimal point; not positive below one tenth. -/
def Interval.pointPosition (interval : Interval) : Int :=
  count (interval.value * power 340 / interval.denominator) - 340

/-- The better neighbour of the value on the grid of the multiples of `10 ^ exponent`,
if one of the two lies in the interval. -/
def Interval.neighbour? (interval : Interval) (tie : Tie) (exponent : Int) : Option Scaled :=
  let numerator := interval.value * power (-exponent).toNat
  let unit := interval.denominator * power exponent.toNat
  let below : Scaled := ⟨numerator / unit, exponent⟩
  let above : Scaled := ⟨numerator / unit + 1, exponent⟩
  let doubled := 2 * (numerator % unit)
  match interval.contains below, interval.contains above with
  | false, false => none
  | true, false => some below
  | false, true => some above
  | true, true =>
    if doubled < unit then some below
    else if unit < doubled then some above
    else if tie = .up ∨ below.digits % 2 = 1 then some above
    else some below

/-- Tries grids with more and more digits, `tries` of them at most. -/
def Interval.search (interval : Interval) (tie : Tie) (exponent : Int) : (tries : Nat) → Scaled
  | 0 => ⟨interval.value * power (-exponent).toNat / (interval.denominator * power exponent.toNat), exponent⟩
  | tries + 1 =>
    match interval.neighbour? tie exponent with
    | some found => found
    | none => interval.search tie (exponent - 1) tries

/-- The shortest decimal form of a magnitude. Seventeen digits always suffice. -/
def shortest (tie : Tie) (magnitude : Magnitude) : Scaled :=
  if magnitude.significand = 0 then ⟨0, 0⟩
  else
    let interval := Interval.ofMagnitude magnitude
    interval.search tie (interval.pointPosition - 1) 17

end Stencil.Decimal
