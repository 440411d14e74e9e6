import Stencil.Decimal.Layout

/-! The numbers of JSON values: whole numbers of 64 bits, and for all others
the numbers of the binary format. -/

namespace Stencil.Json

/-- A number of a JSON value. -/
inductive Number where
  /-- A whole number from `-2 ^ 63` up to `2 ^ 64 - 1`. -/
  | integer (value : Int)
  | float (negative : Bool) (magnitude : Magnitude)
deriving DecidableEq, Repr

/-- Numbers of the binary format are written with the point at its place from
`0.00001` up to 16 digits before the point, and always with a point or an
exponent, so that they are not taken for whole numbers. -/
def numberLayout : Decimal.Layout where
  tie := .even
  positional := some (-5, 16)
  pointZero := true

/-- The text of a whole number. -/
def integerText (value : Int) : Text :=
  (if value < 0 then ['-'] else []) ++ Decimal.digits value.natAbs

/-- The text of a number. -/
def Number.text : Number → Text
  | .integer value => integerText value
  | .float negative magnitude => numberLayout.write (.finite negative magnitude)

end Stencil.Json
