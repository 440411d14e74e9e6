import Stencil.Binary64.Basic
import Stencil.Decimal.Basic

/-! Numbers of the binary format read from text: a sign, digits with or without
a decimal point, and an exponent; or the words for the infinities and for what
is no number, in any case. -/

namespace Stencil.Binary64

/-- Takes a sign off a text; a minus is told by true. -/
def splitSign : Text → Bool × Text
  | '-' :: rest => (true, rest)
  | '+' :: rest => (false, rest)
  | text => (false, text)

/-- The whole number that a text denotes: a sign if there is one, and digits. -/
def wholeOfText? (text : Text) : Option Int :=
  let (negative, digits) := splitSign text
  if digits = [] || !Decimal.isRun digits then none
  else if negative then some (-Decimal.value digits)
  else some (Decimal.value digits)

/-- The digits at the beginning of a text, and what follows them. -/
def splitDigits (text : Text) : Text × Text :=
  (text.takeWhile Char.isDigit, text.dropWhile Char.isDigit)

/-- The digits after a decimal point at the beginning of a text, and what follows them. -/
def splitFraction : Text → Text × Text
  | '.' :: rest => splitDigits rest
  | text => ([], text)

/-- The exponent that a text consists of; zero if the text is empty. -/
def exponentOfText? : Text → Option Int
  | [] => some 0
  | mark :: rest => if mark = 'e' ∨ mark = 'E' then wholeOfText? rest else none

/-- The number nearest to the decimal number without sign that a text denotes. -/
def unsignedOfText? (negative : Bool) (text : Text) : Option Binary64 :=
  let (integer, afterInteger) := splitDigits text
  let (fraction, afterFraction) := splitFraction afterInteger
  if integer = [] ∧ fraction = [] then none
  else
    (exponentOfText? afterFraction).map fun exponent =>
      ofDecimal negative (Decimal.value (integer ++ fraction)) (exponent - fraction.length)

/-- The number that a text denotes. -/
def ofText? (text : Text) : Option Binary64 :=
  let (negative, rest) := splitSign text
  let word := String.ofList (rest.map Char.toLower)
  if word = "nan" then some .nan
  else if word = "inf" || word = "infinity" then some (.infinite negative)
  else unsignedOfText? negative rest

end Stencil.Binary64
