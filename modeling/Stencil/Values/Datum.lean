import Stencil.Binary64.Reading
import Stencil.Decimal.Layout

/-! Data that macros stand for, and how they are displayed. -/

namespace Stencil

/-- A piece of data. -/
inductive Datum where
  | text (value : Text)
  | integer (value : Int)
  | float (value : Binary64)
  | boolean (value : Bool)
  | character (value : Char)
deriving Repr

namespace Datum

/-- The kinds of data. -/
inductive Kind where
  | text
  | integer
  | float
  | boolean
  | character
deriving DecidableEq, Repr

/-- Numbers are displayed without exponent and without superfluous digits. -/
def floatLayout : Decimal.Layout where
  tie := .up
  positional := none
  pointZero := false

/-- A piece of data as it is displayed. -/
def display : Datum → Text
  | .text value => value
  | .integer value => (if value < 0 then ['-'] else []) ++ Decimal.digits value.natAbs
  | .float value => floatLayout.write value
  | .boolean true => ['t', 'r', 'u', 'e']
  | .boolean false => ['f', 'a', 'l', 's', 'e']
  | .character value => [value]

/-- Whole numbers are signed numbers of 128 bits, and lie below this bound. -/
def integerBound : Int := Int.ofNat (1 <<< 127)

/-- Whether a number is a signed number of 128 bits. -/
def isInRange (value : Int) : Bool := -integerBound ≤ value && value < integerBound

/-- The piece of data of the given kind that a text denotes. -/
def ofText? (kind : Kind) (text : Text) : Option Datum :=
  match kind with
  | .text => some (.text text)
  | .integer => ((Binary64.wholeOfText? text).filter isInRange).map .integer
  | .float => (Binary64.ofText? text).map .float
  | .boolean =>
    if text = ['t', 'r', 'u', 'e'] then some (.boolean true)
    else if text = ['f', 'a', 'l', 's', 'e'] then some (.boolean false)
    else none
  | .character =>
    match text with
    | [only] => some (.character only)
    | _ => none

end Datum
end Stencil
