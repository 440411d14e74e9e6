import Mathlib.Data.List.Basic
import Mathlib.Data.List.Induction
import Stencil.Code.Basic

/-! Decimal forms and the numbers they denote determine one another, and so do
codes and their digits: a code is read back from its digits, a text that reads
as a code is the digits of that code, and codes of one base differ in their
last nine digits only. -/
namespace Stencil

namespace Decimal

theorem digitChar_rebuild {character : Char} (digit : character.isDigit = true) :
    Nat.digitChar (character.toNat - 48) = character := by
  have bounds : 48 ≤ character.toNat ∧ character.toNat ≤ 57 := by
    simpa [Char.isDigit, UInt32.le_iff_toNat_le] using digit
  apply Char.toNat_inj.mp
  rw [Nat.toNat_digitChar_of_lt_ten (by omega)]
  omega

theorem digit_lt_ten {character : Char} (digit : character.isDigit = true) :
    character.toNat - 48 < 10 := by
  have bounds : 48 ≤ character.toNat ∧ character.toNat ≤ 57 := by
    simpa [Char.isDigit, UInt32.le_iff_toNat_le] using digit
  omega

/-- A further digit multiplies the value by ten and counts for itself. -/
theorem value_append_digit (run : Text) (character : Char) :
    value (run ++ [character]) = 10 * value run + (character.toNat - 48) := by
  simp [value, Nat.ofDigitChars_append, Nat.ofDigitChars_cons]

/-- A decimal digit takes up one byte. -/
theorem size_of_digits {digits : Text} (run : ∀ digit ∈ digits, digit.isDigit = true) :
    Text.size digits = digits.length := by
  induction digits with
  | nil => rfl
  | cons first rest ih =>
    have narrow : first.utf8Size = 1 := by
      have bounds : 48 ≤ first.val ∧ first.val ≤ 57 := by
        simpa [Char.isDigit] using run first (List.mem_cons_self ..)
      rw [Char.utf8Size_eq_one_iff]
      exact Nat.le_trans bounds.2 (by decide)
    have later := ih fun digit member => run digit (List.mem_cons_of_mem first member)
    rw [Text.size_cons, List.length_cons, narrow, later, Nat.add_comm]

theorem digits_of_lt_ten {number : Nat} (small : number < 10) : digits number = [Nat.digitChar number] :=
  Nat.toDigits_of_lt_base small

/-- The last digit of a form comes after the form of the remaining number. -/
theorem digits_append_digit {number digit : Nat} (positive : 0 < number) (small : digit < 10) :
    digits (10 * number + digit) = digits number ++ [Nat.digitChar digit] := by
  rw [digits, digits, ← Nat.toDigits_append_toDigits (by decide) positive small,
    Nat.toDigits_of_lt_base small]

theorem digits_ne_nil (number : Nat) : digits number ≠ [] := Nat.toDigits_ne_nil

theorem isRun_append {front back : Text} : isRun (front ++ back) = (isRun front && isRun back) := by
  simp [isRun]

theorem isRun_digits (number : Nat) : isRun (digits number) = true :=
  List.all_eq_true.mpr fun _ member => isDigit_of_mem_digits member

/-- Only the number zero has a form that begins with a zero. -/
theorem head_digits_ne_zero {number : Nat} (positive : 0 < number) :
    (digits number).head? ≠ some '0' := by
  fun_induction count number with
  | case1 number small =>
    rw [digits_of_lt_ten small]
    intro zero
    have value := congrArg Char.toNat (Option.some.inj zero)
    rw [Nat.toNat_digitChar_of_lt_ten small] at value
    simp only [↓Char.isValue, Char.reduceToNat] at value
    omega
  | case2 number large ih =>
    have split : 10 * (number / 10) + number % 10 = number := by omega
    rw [← split, digits_append_digit (by omega) (by omega), List.head?_append]
    cases first : (digits (number / 10)).head? with
    | none => exact absurd (List.head?_eq_none_iff.mp first) (digits_ne_nil _)
    | some character =>
      have rest := ih (by omega)
      rw [first] at rest
      simpa using rest

theorem value_pos {run : Text} (digits : isRun run = true) (nonempty : run ≠ [])
    (noZero : run.head? ≠ some '0') : 0 < value run := by
  induction run using List.reverseRecOn with
  | nil => exact absurd rfl nonempty
  | append_singleton front last ih =>
    rw [value_append_digit]
    rw [isRun_append, Bool.and_eq_true] at digits
    have lastDigit : last.isDigit = true := by simpa [isRun] using digits.2
    by_cases empty : front = []
    · subst empty
      have rebuilt := digitChar_rebuild lastDigit
      have positive : last.toNat - 48 ≠ 0 := by
        intro zero
        rw [zero] at rebuilt
        exact noZero (by simp [← rebuilt])
      omega
    · have rest : front.head? ≠ some '0' := by
        rwa [List.head?_append_of_ne_nil _ empty] at noZero
      have positive := ih digits.1 empty rest
      omega

/-- A run of digits without leading zero is the form of its value. -/
theorem digits_value {run : Text} (isRun_run : isRun run = true) (nonempty : run ≠ [])
    (noZero : run.head? ≠ some '0') : digits (value run) = run := by
  induction run using List.reverseRecOn with
  | nil => exact absurd rfl nonempty
  | append_singleton front last ih =>
    rw [isRun_append, Bool.and_eq_true] at isRun_run
    have lastDigit : last.isDigit = true := by simpa [isRun] using isRun_run.2
    have small := digit_lt_ten lastDigit
    rw [value_append_digit]
    by_cases empty : front = []
    · subst empty
      simp [value, digits_of_lt_ten small, digitChar_rebuild lastDigit]
    · have rest : front.head? ≠ some '0' := by
        rwa [List.head?_append_of_ne_nil _ empty] at noZero
      rw [digits_append_digit (value_pos isRun_run.1 empty rest) small,
        ih isRun_run.1 empty rest, digitChar_rebuild lastDigit]

theorem count_pos (number : Nat) : 0 < count number := by
  rw [← length_digits]
  exact List.length_pos_iff.mpr (digits_ne_nil number)

/-- A number below a power of ten has no more digits than the power has zeros. -/
theorem count_le_of_lt_power {number zeros : Nat} (positive : 0 < zeros) (below : number < power zeros) :
    count number ≤ zeros := by
  rw [← length_digits]
  exact (Nat.length_toDigits_le_iff (by decide) positive).mpr below

theorem length_padded {width number : Nat} (positive : 0 < width) (below : number < power width) :
    (padded width number).length = width := by
  have fits := count_le_of_lt_power positive below
  rw [padded, List.length_append, List.length_replicate, length_digits]
  omega

theorem isRun_padded (width number : Nat) : isRun (padded width number) = true := by
  rw [padded, isRun_append, isRun_digits, Bool.and_true]
  exact List.all_eq_true.mpr fun _ member => by rw [List.eq_of_mem_replicate member]; rfl

theorem value_padded (width number : Nat) : value (padded width number) = number := by
  rw [value, padded, Nat.ofDigitChars_append, Nat.ofDigitChars_replicate_zero, Nat.mul_zero]
  exact value_digits number

theorem padded_append_digit {width number digit : Nat} (positive : 0 < width) (small : digit < 10) :
    padded (width + 1) (10 * number + digit) = padded width number ++ [Nat.digitChar digit] := by
  rcases Nat.eq_zero_or_pos number with rfl | large
  · have one : count digit = 1 := by rw [count, if_pos small]
    have zero : count 0 = 1 := by rw [count, if_pos (by decide)]
    have repeated : List.replicate width '0' = List.replicate (width - 1) '0' ++ ['0'] := by
      rw [← List.replicate_succ', Nat.sub_add_cancel positive]
    simp only [padded, Nat.mul_zero, Nat.zero_add, one, zero, Nat.add_sub_cancel, digits_of_lt_ten small,
      digits_of_lt_ten (Nat.zero_lt_succ 9), repeated]
    rfl
  · have more : count (10 * number + digit) = count number + 1 := by
      rw [count, if_neg (by omega)]
      congr 2
      omega
    rw [padded, padded, more, digits_append_digit large small, Nat.add_sub_add_right, List.append_assoc]

/-- A run of digits is its value in a field as wide as the run. -/
theorem padded_value {run : Text} (isRun_run : isRun run = true) (nonempty : run ≠ []) :
    padded run.length (value run) = run := by
  induction run using List.reverseRecOn with
  | nil => exact absurd rfl nonempty
  | append_singleton front last ih =>
    rw [isRun_append, Bool.and_eq_true] at isRun_run
    have lastDigit : last.isDigit = true := by simpa [isRun] using isRun_run.2
    have small := digit_lt_ten lastDigit
    by_cases empty : front = []
    · subst empty
      have one : count (last.toNat - 48) = 1 := by rw [count, if_pos small]
      rw [value_append_digit]
      simp only [List.nil_append, List.length_singleton, value, Nat.ofDigitChars_nil, Nat.mul_zero,
        Nat.zero_add, padded, one, Nat.sub_self, List.replicate_zero, digits_of_lt_ten small,
        digitChar_rebuild lastDigit]
    · rw [value_append_digit, List.length_append, List.length_singleton,
        padded_append_digit (List.length_pos_iff.mpr empty) small, ih isRun_run.1 empty,
        digitChar_rebuild lastDigit]

end Decimal

namespace Code

/-- The codes that templates use: the base can be drawn and is not zero, and
the offset has no more digits than are reserved for it. -/
structure Usable (code : Code) : Prop where
  base_pos : 0 < code.base
  base_lt : code.base < baseBound
  offset_lt : code.offset < limit

theorem isRun_digits (code : Code) : Decimal.isRun code.digits = true := by
  rw [digits, Decimal.isRun_append, Decimal.isRun_digits, Decimal.isRun_padded, Bool.and_true]

theorem isDigit_of_mem_digits {code : Code} {character : Char} (member : character ∈ code.digits) :
    character.isDigit = true :=
  List.all_eq_true.mp code.isRun_digits character member

theorem length_digits {code : Code} (offset_lt : code.offset < limit) :
    code.digits.length = digitCount code := by
  rw [digits, List.length_append, Decimal.length_digits, Decimal.length_padded (by decide) offset_lt,
    digitCount]

theorem offsetWidth_lt_length_digits {code : Code} (offset_lt : code.offset < limit) :
    offsetWidth < code.digits.length := by
  have positive := Decimal.count_pos code.base
  rw [length_digits offset_lt, digitCount]
  omega

theorem digits_ne_nil (code : Code) : code.digits ≠ [] := by
  simp [digits, Decimal.digits_ne_nil]

theorem head_digits_ne_zero {code : Code} (positive : 0 < code.base) :
    code.digits.head? ≠ some '0' := by
  rw [digits, List.head?_append_of_ne_nil _ (Decimal.digits_ne_nil code.base)]
  exact Decimal.head_digits_ne_zero positive

/-- Codes of one base with the same digits are the same. -/
theorem digits_injective {left right : Code} (same : left.digits = right.digits)
    (base : left.base = right.base) : left = right := by
  obtain ⟨base', leftOffset⟩ := left
  obtain ⟨_, rightOffset⟩ := right
  subst base
  have offsets := congrArg Decimal.value (List.append_cancel_left same)
  simp only [Decimal.value_padded] at offsets
  rw [offsets]

/-- A usable code is read back from its digits. -/
theorem ofDigits?_digits {code : Code} (usable : Usable code) : ofDigits? code.digits = some code := by
  have width : (Decimal.padded offsetWidth code.offset).length = offsetWidth :=
    Decimal.length_padded (by decide) usable.offset_lt
  have short : ¬ code.digits.length ≤ offsetWidth :=
    Nat.not_le.mpr (offsetWidth_lt_length_digits usable.offset_lt)
  have place : code.digits.length - offsetWidth = (Decimal.digits code.base).length := by
    rw [digits, List.length_append, width, Nat.add_sub_cancel]
  have front : code.digits.take (code.digits.length - offsetWidth) = Decimal.digits code.base := by
    rw [place, digits, List.take_left]
  have back : code.digits.drop (code.digits.length - offsetWidth) =
      Decimal.padded offsetWidth code.offset := by
    rw [place, digits, List.drop_left]
  simp only [ofDigits?, if_neg short, isRun_digits, front, back, Decimal.value_digits,
    Decimal.value_padded, if_neg (Decimal.head_digits_ne_zero usable.base_pos), if_pos usable.base_lt, ↓reduceIte]

/-- A text that reads as a code is the digits of that code. -/
theorem eq_digits_of_ofDigits? {text : Text} {code : Code} (read : ofDigits? text = some code) :
    text = code.digits := by
  simp only [ofDigits?, Option.ite_none_left_eq_some, Option.ite_none_right_eq_some, Option.some.injEq] at read
  obtain ⟨long, run, noZero, _, rfl⟩ := read
  let place := text.length - offsetWidth
  have division : text.take place ++ text.drop place = text := List.take_append_drop place text
  have frontLength : (text.take place).length = place := by simp [place]
  have backLength : (text.drop place).length = offsetWidth := by
    simp only [List.length_drop, place]
    omega
  have runs : Decimal.isRun (text.take place) = true ∧ Decimal.isRun (text.drop place) = true := by
    rw [← Bool.and_eq_true, ← Decimal.isRun_append, division]
    exact run
  have frontNonempty : text.take place ≠ [] := by
    rw [← List.length_pos_iff, frontLength]
    simp only [place]
    omega
  have backNonempty : text.drop place ≠ [] := by
    rw [← List.length_pos_iff, backLength]
    decide
  have base := Decimal.digits_value runs.1 frontNonempty noZero
  have offset := Decimal.padded_value runs.2 backNonempty
  rw [backLength] at offset
  calc
    text = text.take place ++ text.drop place := division.symm
    _ = _ := by rw [digits]; exact congrArg₂ (· ++ ·) base.symm offset.symm

end Code
end Stencil
