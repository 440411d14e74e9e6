import Stencil.Json.Literal

/-! Numbers as they are written in JSON text, and the numbers that they denote.
A whole number of 64 bits is kept as it is. For all others the leading digits
that make a whole number of 64 bits are kept, and the rest of the digits counts
by its length alone; what is left is then scaled by powers of ten, with a
rounding at every step. -/

namespace Stencil

namespace Magnitude

/-- The largest exponent of a power of ten that is a magnitude. -/
def largestPower : Nat := 308

/-- A power of ten, rounded. -/
def powerOfTen? (exponent : Nat) : Option Magnitude := ofFraction? (Decimal.power exponent) 1

/-- A magnitude divided by a power of ten, in steps of the largest power. -/
def divideByPower (magnitude : Magnitude) (exponent : Nat) : Magnitude :=
  if magnitude.significand = 0 then magnitude
  else
    let step := min exponent largestPower
    let quotient := ((powerOfTen? step).bind magnitude.div?).getD zero
    if _further : largestPower < exponent then divideByPower quotient (exponent - step) else quotient
termination_by exponent
decreasing_by
  simp only [largestPower] at *
  omega

/-- A magnitude times a power of ten; none if that is out of range. -/
def scale? (magnitude : Magnitude) (exponent : Int) : Option Magnitude :=
  if exponent < 0 then some (magnitude.divideByPower exponent.natAbs)
  else if magnitude.significand = 0 then some magnitude
  else if largestPower < exponent.toNat then none
  else (powerOfTen? exponent.toNat).bind magnitude.mul?

end Magnitude

namespace Json

/-- A number as it is written. There is a fraction only if there are digits in it. -/
structure Numeral where
  negative : Bool
  integer : Text
  fraction : Text
  /-- The exponent's sign, which is true for a minus, and its digits. -/
  exponent : Option (Bool × Text)
deriving Repr, BEq

namespace Numeral

/-- The largest significand, and the largest whole number. -/
def largestSignificand : Nat := (1 <<< 64) - 1

/-- The largest number that is read as an exponent. -/
def largestExponent : Nat := (1 <<< 31) - 1

/-- Appends digits to a significand as long as it does not become too large;
gives the digits that are left over, too. -/
def absorb (significand : Nat) : Text → Nat × Text
  | [] => (significand, [])
  | digit :: digits =>
    let longer := significand * 10 + (digit.toNat - '0'.toNat)
    if largestSignificand < longer then (significand, digit :: digits) else absorb longer digits

/-- Reads the digits of an exponent up to the largest one; gives none and the
digits left over if the exponent is larger. -/
def readExponent (exponent : Nat) : Text → Option Nat × Text
  | [] => (some exponent, [])
  | digit :: digits =>
    let longer := exponent * 10 + (digit.toNat - '0'.toNat)
    if largestExponent < longer then (none, digits) else readExponent longer digits

/-- The number that a significand without fraction and exponent denotes. A
negative one that is no whole number of 64 bits, and the negative zero, are
numbers of the binary format. -/
def wholeNumber (negative : Bool) (significand : Nat) : Number :=
  if negative then
    if significand = 0 ∨ 1 <<< 63 < significand then
      .float true ((Magnitude.ofFraction? significand 1).getD Magnitude.zero)
    else .integer (-significand)
  else .integer significand

/-- The number that a significand times a power of ten denotes. -/
def scaledNumber? (negative : Bool) (significand : Nat) (exponent : Int) : Option Number :=
  ((Magnitude.ofFraction? significand 1).bind (·.scale? exponent)).map (Number.float negative)

/-- The number that a numeral denotes. If it is out of range, the answer tells
how many of its last characters need not be looked at to find that out. -/
def number (numeral : Numeral) : Except Nat Number :=
  let (whole, integerLeft) := absorb 0 numeral.integer
  let (significand, fractionLeft) := absorb whole numeral.fraction
  let exponent : Int :=
    integerLeft.length - (numeral.fraction.length - fractionLeft.length : Nat)
  let scaled (exponent : Int) : Except Nat Number :=
    match scaledNumber? numeral.negative significand exponent with
    | some number => .ok number
    | none => .error 0
  match numeral.exponent with
  | none =>
    if numeral.fraction = [] ∧ integerLeft = [] then .ok (wholeNumber numeral.negative significand)
    else scaled exponent
  | some (minus, digits) =>
    match readExponent 0 digits with
    | (some written, _) => scaled (if minus then exponent - written else exponent + written)
    | (none, left) =>
      if significand = 0 ∨ minus then .ok (.float numeral.negative Magnitude.zero)
      else .error left.length

end Numeral

/-- The problem with a number that breaks off at the end of the text. -/
def Care.numberAtEnd : Care → Problem
  | .kept => .endInValue
  | .skipped => .badNumber

/-- Reads digits, of which there must be one at least. -/
def readDigits (care : Care) (cursor : Cursor) : Except Fault (Text × Cursor) :=
  match cursor.rest with
  | [] => .error (cursor.faultBehind care.numberAtEnd)
  | first :: _ =>
    if first.isDigit then
      .ok (cursor.rest.takeWhile Char.isDigit, cursor.skipWhile Char.isDigit)
    else .error (cursor.faultBehind .badNumber)

/-- Reads the digits before the decimal point, which do not begin with a
superfluous zero. -/
def readInteger (care : Care) (cursor : Cursor) : Except Fault (Text × Cursor) :=
  match readDigits care cursor with
  | .error fault => .error fault
  | .ok (digits, next) =>
    if digits.head? = some '0' ∧ 1 < digits.length then .error ⟨.badNumber, some (cursor.offset + 2)⟩
    else .ok (digits, next)

/-- Reads a decimal point and the digits after it, if there is a point. -/
def readFraction (care : Care) (cursor : Cursor) : Except Fault (Text × Cursor) :=
  match cursor.rest with
  | '.' :: rest => readDigits care ⟨cursor.offset + 1, rest⟩
  | _ => .ok ([], cursor)

/-- Reads a sign, if there is one; a minus is told by true. -/
def readSign (cursor : Cursor) : Bool × Cursor :=
  match cursor.rest with
  | '-' :: rest => (true, ⟨cursor.offset + 1, rest⟩)
  | '+' :: rest => (false, ⟨cursor.offset + 1, rest⟩)
  | _ => (false, cursor)

/-- Reads an exponent, if there is one. -/
def readExponent (care : Care) (cursor : Cursor) : Except Fault (Option (Bool × Text) × Cursor) :=
  match cursor.rest with
  | [] => .ok (none, cursor)
  | mark :: rest =>
    if mark = 'e' ∨ mark = 'E' then
      let (minus, atDigits) := readSign ⟨cursor.offset + 1, rest⟩
      match readDigits care atDigits with
      | .error fault => .error fault
      | .ok (digits, next) => .ok (some (minus, digits), next)
    else .ok (none, cursor)

/-- Reads a number without its sign. -/
def readNumeral (care : Care) (negative : Bool) (cursor : Cursor) : Except Fault (Numeral × Cursor) :=
  match readInteger care cursor with
  | .error fault => .error fault
  | .ok (integer, afterInteger) =>
    match readFraction care afterInteger with
    | .error fault => .error fault
    | .ok (fraction, afterFraction) =>
      match readExponent care afterFraction with
      | .error fault => .error fault
      | .ok (exponent, next) => .ok (⟨negative, integer, fraction, exponent⟩, next)

theorem length_lt_of_readDigits {care : Care} {cursor next : Cursor} {digits : Text}
    (reads : readDigits care cursor = .ok (digits, next)) :
    next.rest.length < cursor.rest.length := by
  obtain ⟨offset, rest⟩ := cursor
  cases rest with
  | nil => simp [readDigits] at reads
  | cons first rest =>
    simp only [readDigits] at reads
    split at reads
    · rename_i digit
      simp only [Except.ok.injEq, Prod.mk.injEq] at reads
      have shorter := (List.dropWhile_sublist (l := rest) Char.isDigit).length_le
      simp only [← reads.2, Cursor.skipWhile, List.dropWhile_cons, digit, ↓reduceIte, List.length_cons]
      omega
    · simp at reads

theorem length_lt_of_readInteger {care : Care} {cursor next : Cursor} {digits : Text}
    (reads : readInteger care cursor = .ok (digits, next)) :
    next.rest.length < cursor.rest.length := by
  unfold readInteger at reads
  split at reads
  · simp at reads
  · rename_i found last inner
    split at reads
    · simp at reads
    · simp only [Except.ok.injEq, Prod.mk.injEq] at reads
      exact reads.2 ▸ length_lt_of_readDigits inner

theorem length_le_of_readFraction {care : Care} {cursor next : Cursor} {digits : Text}
    (reads : readFraction care cursor = .ok (digits, next)) :
    next.rest.length ≤ cursor.rest.length := by
  unfold readFraction at reads
  split at reads
  · rename_i rest rest_eq
    have shorter := length_lt_of_readDigits reads
    simp only [rest_eq, List.length_cons] at *
    omega
  · simp only [Except.ok.injEq, Prod.mk.injEq] at reads
    exact Nat.le_of_eq (reads.2 ▸ rfl)

theorem length_readSign_le (cursor : Cursor) : (readSign cursor).2.rest.length ≤ cursor.rest.length := by
  unfold readSign
  split <;> simp_all

theorem length_le_of_readExponent {care : Care} {cursor next : Cursor} {exponent : Option (Bool × Text)}
    (reads : readExponent care cursor = .ok (exponent, next)) :
    next.rest.length ≤ cursor.rest.length := by
  obtain ⟨offset, rest⟩ := cursor
  cases rest with
  | nil =>
    simp only [readExponent, Except.ok.injEq, Prod.mk.injEq] at reads
    exact Nat.le_of_eq (reads.2 ▸ rfl)
  | cons mark rest =>
    simp only [readExponent] at reads
    split at reads
    · have sign_le := length_readSign_le ⟨offset + 1, rest⟩
      split at reads
      · simp at reads
      · rename_i inner
        simp only [Except.ok.injEq, Prod.mk.injEq] at reads
        have shorter := length_lt_of_readDigits inner
        simp only [← reads.2, List.length_cons] at *
        omega
    · simp only [Except.ok.injEq, Prod.mk.injEq] at reads
      exact Nat.le_of_eq (reads.2 ▸ rfl)

/-- What follows a number is shorter than what follows its sign. -/
theorem length_lt_of_readNumeral {care : Care} {negative : Bool} {cursor next : Cursor}
    {numeral : Numeral} (reads : readNumeral care negative cursor = .ok (numeral, next)) :
    next.rest.length < cursor.rest.length := by
  unfold readNumeral at reads
  split at reads
  · simp at reads
  · rename_i readsInteger
    have integer_lt := length_lt_of_readInteger readsInteger
    split at reads
    · simp at reads
    · rename_i readsFraction
      have fraction_le := length_le_of_readFraction readsFraction
      split at reads
      · simp at reads
      · rename_i readsExponent
        have exponent_le := length_le_of_readExponent readsExponent
        simp only [Except.ok.injEq, Prod.mk.injEq] at reads
        rw [← reads.2]
        omega

end Json
end Stencil
