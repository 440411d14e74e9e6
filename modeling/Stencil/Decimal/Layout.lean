import Stencil.Decimal.Shortest

/-! How a decimal number is written: with a decimal point at its place, or with
an exponent. -/

namespace Stencil.Decimal

/-- The choices in writing a number of the binary format. -/
structure Layout where
  tie : Tie
  /-- The point is written at its place if the number of digits before it lies
  above the first bound and not above the second; otherwise there is an exponent. -/
  positional : Option (Int × Int)
  /-- Whether a whole number ends in `.0`. -/
  pointZero : Bool

/-- Digits with the point after the given number of them, filled up with zeros. -/
def Layout.writePositional (layout : Layout) (digits : Text) (point : Int) : Text :=
  if point ≤ 0 then ['0', '.'] ++ List.replicate (-point).toNat '0' ++ digits
  else if digits.length ≤ point.toNat then
    digits ++ List.replicate (point.toNat - digits.length) '0' ++
      (if layout.pointZero then ['.', '0'] else [])
  else digits.take point.toNat ++ ['.'] ++ digits.drop point.toNat

/-- Digits with the point after the first of them, and an exponent with sign. -/
def writeScientific (digits : Text) (point : Int) : Text :=
  let exponent := point - 1
  digits.take 1 ++ (if digits.length ≤ 1 then [] else ['.'] ++ digits.drop 1) ++ ['e'] ++
    (if exponent < 0 then ['-'] else ['+']) ++ Decimal.digits exponent.natAbs

/-- The text of a magnitude. -/
def Layout.writeMagnitude (layout : Layout) (magnitude : Magnitude) : Text :=
  if magnitude.significand = 0 then '0' :: (if layout.pointZero then ['.', '0'] else [])
  else
    let scaled := shortest layout.tie magnitude
    let all := Decimal.digits scaled.digits
    let point := all.length + scaled.exponent
    let digits := (all.reverse.dropWhile fun digit => digit = '0').reverse
    match layout.positional with
    | none => layout.writePositional digits point
    | some (low, high) =>
      if low < point ∧ point ≤ high then layout.writePositional digits point
      else writeScientific digits point

/-- The text of a number; the sign is written for a negative zero, too. -/
def Layout.write (layout : Layout) : Binary64 → Text
  | .finite negative magnitude => (if negative then ['-'] else []) ++ layout.writeMagnitude magnitude
  | .infinite negative => (if negative then ['-'] else []) ++ ['i', 'n', 'f']
  | .nan => ['N', 'a', 'N']

end Stencil.Decimal
