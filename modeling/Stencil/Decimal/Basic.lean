import Stencil.Text.Basic

/-! Natural numbers in decimal form. The form of a number has no leading zero;
a field of fixed width is filled up with zeros on the left. -/

namespace Stencil.Decimal

/-- The decimal form of a number, without leading zeros. -/
def digits (number : Nat) : Text := Nat.toDigits 10 number

/-- The number that a run of decimal digits denotes; leading zeros do not count. -/
def value (run : Text) : Nat := Nat.ofDigitChars 10 run 0

@[simp] theorem value_digits (number : Nat) : value (digits number) = number :=
  Nat.ofDigitChars_ten_toDigits

/-- Different numbers have different decimal forms. -/
theorem digits_injective {left right : Nat} (same : digits left = digits right) : left = right := by
  have values := congrArg value same
  simpa using values

theorem isDigit_of_mem_digits {number : Nat} {character : Char} (member : character ∈ digits number) :
    character.isDigit = true :=
  Nat.isDigit_of_mem_toDigits (by decide) (by decide) member

/-- The number of digits of the decimal form. -/
def count (number : Nat) : Nat :=
  if number < 10 then 1 else count (number / 10) + 1
termination_by number

theorem length_digits (number : Nat) : (digits number).length = count number := by
  fun_induction count number with
  | case1 number small => simp [digits, Nat.toDigits_of_lt_base small]
  | case2 number large ih =>
    rw [digits, Nat.toDigits_of_base_le (by decide) (by omega), List.length_append]
    simpa [digits] using ih

/-- The power of ten with the given number of zeros. -/
def power (zeros : Nat) : Nat := Nat.pow 10 zeros

@[simp] theorem power_zero : power 0 = 1 := rfl

theorem power_succ (zeros : Nat) : power (zeros + 1) = power zeros * 10 := rfl

theorem power_pos (zeros : Nat) : 0 < power zeros := Nat.pow_pos (by decide)

theorem power_le_power {fewer more : Nat} (le : fewer ≤ more) : power fewer ≤ power more :=
  Nat.pow_le_pow_right (by decide) le

/-- A number lies below the power of ten with as many zeros as it has digits. -/
theorem lt_power_count (number : Nat) : number < power (count number) := by
  fun_induction count number with
  | case1 number small =>
    rw [power_succ, power_zero]
    omega
  | case2 number large ih =>
    rw [power_succ]
    omega

/-- The decimal form in a field of the given width, filled up with zeros on the left. -/
def padded (width number : Nat) : Text :=
  List.replicate (width - count number) '0' ++ digits number

/-- Whether a text is a run of ASCII digits. -/
def isRun (text : Text) : Bool := text.all Char.isDigit

end Stencil.Decimal
