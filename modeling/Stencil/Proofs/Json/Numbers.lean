import Mathlib.Data.List.DropRight
import Stencil.Json.Number
import Stencil.Proofs.Decimal.Shortest
import Stencil.Proofs.Document.Grammar

/-! Numbers of JSON values are written in the grammar of numbers: whole numbers
as integers, and numbers of the binary format always with a point or an
exponent, and digits on both sides of it. -/
namespace Stencil

open Document (Digits Whole IsInteger IsFraction IsExponent IsDecimal)

variable {sign digits : Text} {point : Int}

namespace Decimal

/-- A decimal form is a run of digits. -/
theorem digits_run (number : Nat) : Digits (Decimal.digits number) :=
  ⟨digits_ne_nil number, fun _ => isDigit_of_mem_digits⟩

/-- Digits that do not begin with a zero. -/
structure IsSignificant (digits : Text) : Prop where
  run : Digits digits
  head_ne : digits.head? ≠ some '0'

theorem isSignificant_digits {number : Nat} (positive : 0 < number) : IsSignificant (Decimal.digits number) :=
  ⟨digits_run number, head_digits_ne_zero positive⟩

namespace IsSignificant

/-- More digits may follow. -/
theorem append {more : Text} (significant : IsSignificant digits) (run : ∀ digit ∈ more, digit.isDigit = true) :
    IsSignificant (digits ++ more) := by
  obtain ⟨⟨nonempty, isDigit⟩, head_ne⟩ := significant
  refine ⟨⟨by simp [nonempty], fun digit member => ?_⟩, by rwa [List.head?_append_of_ne_nil _ nonempty]⟩
  exact (List.mem_append.mp member).elim (isDigit digit) (run digit)

/-- Digits may be missing at the end. -/
theorem of_prefix {front : Text} (significant : IsSignificant digits) (begins : front <+: digits) (some : front ≠ []) :
    IsSignificant front := by
  obtain ⟨back, rfl⟩ := begins
  refine ⟨⟨some, fun digit member => significant.run.2 digit (List.mem_append_left back member)⟩, ?_⟩
  have head_ne := significant.head_ne
  rwa [List.head?_append_of_ne_nil _ some] at head_ne

theorem whole (significant : IsSignificant digits) : Whole digits := by
  obtain ⟨⟨nonempty, isDigit⟩, head_ne⟩ := significant
  cases digits with
  | nil => exact absurd rfl nonempty
  | cons first rest =>
    refine .positive (isDigit first (by simp)) (fun zero => head_ne (by rw [zero]; rfl)) fun digit member => ?_
    exact isDigit digit (List.mem_cons_of_mem first member)

/-- Zeros at the end do not matter, and there is a digit in front of them. -/
theorem trimmed (significant : IsSignificant digits) :
    IsSignificant (digits.reverse.dropWhile fun digit => digit = '0').reverse := by
  refine significant.of_prefix (List.rdropWhile_prefix _ digits) fun empty => ?_
  cases digits with
  | nil => exact significant.run.1 rfl
  | cons first rest =>
    have zeros := List.rdropWhile_eq_nil_iff.mp empty first (by simp)
    exact significant.head_ne (by simpa using zeros)

end IsSignificant

/-- The decimal form of a number is a whole number. -/
theorem whole_digits (number : Nat) : Whole (Decimal.digits number) := by
  rcases Nat.eq_zero_or_pos number with rfl | positive
  · exact .zero
  · exact (isSignificant_digits positive).whole

end Decimal

/-- A sign of a number: none, or a minus. -/
def IsSign (sign : Text) : Prop := sign = [] ∨ sign = ['-']

theorem IsSign.ite (negative : Prop) [Decidable negative] : IsSign (if negative then ['-'] else []) := by
  split
  · exact .inr rfl
  · exact .inl rfl

theorem IsSign.isInteger {whole : Text} (isSign : IsSign sign) (number : Whole whole) : IsInteger (sign ++ whole) := by
  rcases isSign with rfl | rfl
  · exact .unsigned number
  · exact .signed number

namespace Decimal

/-- Zeros are digits. -/
theorem isDigit_of_mem_zeros {count : Nat} : ∀ digit ∈ List.replicate count '0', digit.isDigit = true := by
  intro digit member
  rw [List.eq_of_mem_replicate member]
  rfl

/-- With the point at its place there are digits on both sides of it. -/
theorem isDecimal_writePositional {layout : Layout} (pointed : layout.pointZero = true) (isSign : IsSign sign)
    (significant : IsSignificant digits) : IsDecimal (sign ++ layout.writePositional digits point) := by
  rw [Layout.writePositional, if_pos pointed]
  split
  · have fraction : IsFraction ('.' :: (List.replicate (-point).toNat '0' ++ digits)) := by
      refine .digits ⟨by simp [significant.run.1], fun digit member => ?_⟩
      exact (List.mem_append.mp member).elim (isDigit_of_mem_zeros digit) (significant.run.2 digit)
    simpa using IsDecimal.fraction (isSign.isInteger .zero) fraction
  · split
    · have fraction : IsFraction ['.', '0'] := .digits ⟨by simp, by simp⟩
      have whole := (significant.append (@isDigit_of_mem_zeros (point.toNat - digits.length))).whole
      simpa using IsDecimal.fraction (isSign.isInteger whole) fraction
    · rename_i someBefore someBehind
      have whole : Whole (digits.take point.toNat) := by
        refine (significant.of_prefix (List.take_prefix _ _) fun empty => ?_).whole
        rcases List.take_eq_nil_iff.mp empty with none | empty
        · omega
        · exact significant.run.1 empty
      have fraction : IsFraction ('.' :: digits.drop point.toNat) := by
        refine .digits ⟨by rw [ne_eq, List.drop_eq_nil_iff]; exact someBehind, fun digit member => ?_⟩
        exact significant.run.2 digit (List.mem_of_mem_drop member)
      simpa using IsDecimal.fraction (isSign.isInteger whole) fraction

/-- With an exponent there is one digit in front of the point, and no point if there is no more. -/
theorem isDecimal_writeScientific (isSign : IsSign sign) (significant : IsSignificant digits) :
    IsDecimal (sign ++ writeScientific digits point) := by
  have exponent : IsExponent
      ('e' :: (if point - 1 < 0 then ['-'] else ['+']) ++ Decimal.digits (point - 1).natAbs) := by
    split
    · exact .signed (.inl rfl) (.inr rfl) (digits_run _)
    · exact .signed (.inl rfl) (.inl rfl) (digits_run _)
  cases digits with
  | nil => exact absurd rfl significant.run.1
  | cons first rest =>
    have whole : Whole [first] := (significant.of_prefix (List.prefix_append [first] rest) (by simp)).whole
    cases rest with
    | nil => simpa [writeScientific] using IsDecimal.exponent (isSign.isInteger whole) exponent
    | cons second rest =>
      have fraction : IsFraction ('.' :: second :: rest) :=
        .digits ⟨by simp, fun digit member => significant.run.2 digit (List.mem_cons_of_mem first member)⟩
      simpa [writeScientific] using IsDecimal.both (isSign.isInteger whole) fraction exponent

/-- A magnitude is written with a point or an exponent, if whole numbers are to end in `.0`. -/
theorem isDecimal_writeMagnitude {layout : Layout} (pointed : layout.pointZero = true) (isSign : IsSign sign)
    {magnitude : Magnitude} (inFormat : Magnitude.minExponent ≤ magnitude.exponent) :
    IsDecimal (sign ++ layout.writeMagnitude magnitude) := by
  rw [Layout.writeMagnitude]
  by_cases zero : magnitude.significand = 0
  · have fraction : IsFraction ['.', '0'] := .digits ⟨by simp, by simp⟩
    rw [if_pos zero, if_pos pointed]
    simpa using IsDecimal.fraction (isSign.isInteger .zero) fraction
  · rw [if_neg zero]
    have significant := (isSignificant_digits (@shortest_pos magnitude layout.tie zero inFormat)).trimmed
    cases layout.positional with
    | none => exact isDecimal_writePositional pointed isSign significant
    | some bounds =>
      dsimp only
      split
      · exact isDecimal_writePositional pointed isSign significant
      · exact isDecimal_writeScientific isSign significant

end Decimal

/-! ### Integers and other numbers -/

/-- Whether a character occurs only in numbers that are not integers: the point, or a mark of an exponent. -/
def isDecimalMark (character : Char) : Bool := character = '.' || character = 'e' || character = 'E'

/-- An integer has neither a point nor an exponent. -/
theorem Document.IsInteger.no_mark {text : Text} (number : IsInteger text) : text.any isDecimalMark = false := by
  have digit_noMark {digit : Char} (isDigit : digit.isDigit = true) : isDecimalMark digit = false := by
    simp [isDecimalMark, Document.isDigit_ne isDigit]
  have whole_noMark {whole : Text} (number : Whole whole) : whole.any isDecimalMark = false := by
    cases number with
    | zero => rfl
    | positive digit _ digits =>
      rw [List.any_cons, digit_noMark digit, Bool.false_or, List.any_eq_false]
      exact fun character member => by rw [digit_noMark (digits character member)]; nofun
  cases number with
  | unsigned number => exact whole_noMark number
  | signed number =>
    rw [List.any_cons, whole_noMark number]
    rfl

/-- Any other number has one of them. -/
theorem Document.IsDecimal.has_mark {text : Text} (number : IsDecimal text) : text.any isDecimalMark = true := by
  have point {fraction : Text} (isFraction : IsFraction fraction) : fraction.any isDecimalMark = true := by
    cases isFraction
    rfl
  have mark {exponent : Text} (isExponent : IsExponent exponent) : exponent.any isDecimalMark = true := by
    cases isExponent with
    | unsigned isMark run => rcases isMark with rfl | rfl <;> rfl
    | signed isMark isSign run => rcases isMark with rfl | rfl <;> rfl
  cases number with
  | fraction _ back => rw [List.any_append, point back, Bool.or_true]
  | exponent _ back => rw [List.any_append, mark back, Bool.or_true]
  | both _ _ back => rw [List.any_append, mark back, Bool.or_true]

namespace Json.Number

/-- The numbers of the binary format have no exponent below the smallest one. -/
def InFormat : Number → Prop
  | .integer _ => True
  | .float _ magnitude => Magnitude.minExponent ≤ magnitude.exponent

/-- Whether a number is written without fraction and exponent. -/
def isWhole (number : Number) : Bool := !number.text.any isDecimalMark

/-- A whole number is written as an integer. -/
theorem isInteger_text (value : Int) :
    (Number.integer value).isWhole = true ∧ IsInteger (Number.integer value).text := by
  have isInteger : IsInteger (integerText value) := (IsSign.ite (value < 0)).isInteger (Decimal.whole_digits _)
  exact ⟨by rw [isWhole, text, isInteger.no_mark]; rfl, isInteger⟩

/-- A number of the binary format is never written as an integer. -/
theorem isDecimal_text {negative : Bool} {magnitude : Magnitude}
    (inFormat : (Number.float negative magnitude).InFormat) :
    (Number.float negative magnitude).isWhole = false ∧ IsDecimal (Number.float negative magnitude).text := by
  have isDecimal : IsDecimal (numberLayout.write (.finite negative magnitude)) :=
    Decimal.isDecimal_writeMagnitude rfl (IsSign.ite (negative = true)) inFormat
  exact ⟨by rw [isWhole, text, isDecimal.has_mark]; rfl, isDecimal⟩

end Json.Number

end Stencil
