import Stencil.Decimal.Basic

/-! Codes. While a template is examined, a code stands in for each macro
occurrence: a whole number that shares the digits of the template's base, and
whose last nine digits count the occurrences. -/

namespace Stencil

/-- The code of one occurrence: the base of its template and its own number.
It stands for the whole number `base * 10 ^ 9 + offset`. -/
structure Code where
  base : Nat
  offset : Nat
deriving DecidableEq, Repr

namespace Code

/-- The number of digits that are reserved for the offset. -/
def offsetWidth : Nat := 9

/-- The number of codes that share one base, and so the number of occurrences
that one template can hold. -/
def limit : Nat := Decimal.power offsetWidth

/-- Bases lie below this bound: they are drawn as numbers of 128 bits. -/
def baseBound : Nat := 1 <<< 128

/-- The code of the occurrence that comes after `offset` others; there are only
so many codes of one base. -/
def nth? (base offset : Nat) : Option Code :=
  if offset < limit then some ⟨base, offset⟩ else none

/-- The whole number that a code stands for. -/
def toNat (code : Code) : Nat := code.base * limit + code.offset

/-- The decimal form of a code: the digits of its base, then nine digits for the offset. -/
def digits (code : Code) : Text :=
  Decimal.digits code.base ++ Decimal.padded offsetWidth code.offset

/-- The number of digits of a code. -/
def digitCount (code : Code) : Nat := Decimal.count code.base + offsetWidth

/-- Reads a text as a code. The text must be a run of digits without leading
zero that leaves at least one digit to the base, and the base must be in bounds. -/
def ofDigits? (text : Text) : Option Code :=
  if text.length ≤ offsetWidth then none
  else if Decimal.isRun text then
    let base := text.take (text.length - offsetWidth)
    let offset := text.drop (text.length - offsetWidth)
    if base.head? = some '0' then none
    else if Decimal.value base < baseBound then some ⟨Decimal.value base, Decimal.value offset⟩
    else none
  else none

/-- Codes are ordered by base, and codes of one base by offset. -/
instance : LT Code where
  lt left right := left.base < right.base ∨ left.base = right.base ∧ left.offset < right.offset

instance (left right : Code) : Decidable (left < right) :=
  inferInstanceAs (Decidable (_ ∨ _))

/-- Codes in ascending order. -/
def sort (codes : List Code) : List Code :=
  codes.mergeSort fun left right => decide (¬ right < left)

end Code
end Stencil
