import Mathlib.Algebra.Group.Nat.Defs
import Mathlib.Data.Nat.Log
import Stencil.Proofs.Code.Allocation

/-! Codes as numbers. The texts that read as codes are the decimal forms of the
numbers from `10 ^ 9` up to where the bases end, and each of them is the form of
one code only. Codes ascend as the numbers they stand for. A form has no leading
zero, so the shorter of two forms stands for the smaller number, and of two
equally long ones the one that comes first in character order. -/
namespace Stencil

namespace Decimal

variable {left right run : Text} {number zeros : Nat}

/-! ### Runs of one length -/

/-- The first digit of a run counts as the power of ten with a zero for each digit after it. -/
theorem value_cons (character : Char) (rest : Text) :
    value (character :: rest) = (character.toNat - 48) * power rest.length + value rest := by
  rw [value, value, Nat.ofDigitChars_cons, Nat.mul_zero, Nat.zero_add, Nat.ofDigitChars_eq_ofDigitChars_zero,
    Nat.mul_comm]
  rfl

theorem isRun_cons {character : Char} {rest : Text} (digits : isRun (character :: rest) = true) :
    character.isDigit = true ∧ isRun rest = true := by
  simpa [isRun] using digits

/-- The value of a run lies below the power of ten with as many zeros as the run has digits. -/
theorem value_lt_power (digits : isRun run = true) : value run < power run.length := by
  induction run with
  | nil => decide
  | cons character rest ih =>
    obtain ⟨isDigit, digits⟩ := isRun_cons digits
    have small := digit_lt_ten isDigit
    have whole : (character.toNat - 48 + 1) * power rest.length ≤ 10 * power rest.length :=
      Nat.mul_le_mul_right _ small
    calc
      value (character :: rest) = (character.toNat - 48) * power rest.length + value rest := value_cons character rest
      _ < (character.toNat - 48 + 1) * power rest.length := by
        rw [Nat.add_mul, Nat.one_mul]
        exact Nat.add_lt_add_left (ih digits) _
      _ ≤ power (character :: rest).length := by
        rw [List.length_cons, power_succ, Nat.mul_comm (power _)]
        exact whole

/-- Digits come in the order of their values. -/
theorem digit_lt_iff {digit other : Char} (isDigit : digit.isDigit = true) (isDigit' : other.isDigit = true) :
    digit < other ↔ digit.toNat - 48 < other.toNat - 48 := by
  have bounds : 48 ≤ digit.toNat ∧ digit.toNat ≤ 57 := by
    simpa [Char.isDigit, UInt32.le_iff_toNat_le] using isDigit
  have bounds' : 48 ≤ other.toNat ∧ other.toNat ≤ 57 := by
    simpa [Char.isDigit, UInt32.le_iff_toNat_le] using isDigit'
  rw [Char.lt_def, UInt32.lt_iff_toNat_lt]
  change digit.toNat < other.toNat ↔ _
  omega

/-- Of two numbers with parts below the same bound, the high parts decide, and the low parts if those are the same. -/
theorem mul_add_lt_mul_add_iff {bound high high' low low' : Nat} (below : low < bound) (below' : low' < bound) :
    high * bound + low < high' * bound + low' ↔ high < high' ∨ high = high' ∧ low < low' := by
  rcases Nat.lt_trichotomy high high' with less | rfl | greater
  · have apart := Nat.mul_le_mul_right bound less
    rw [Nat.succ_mul] at apart
    exact iff_of_true (by omega) (.inl less)
  · simp
  · have apart := Nat.mul_le_mul_right bound greater
    rw [Nat.succ_mul] at apart
    exact iff_of_false (by omega) (by omega)

/-- Of two runs of one length, the one that comes first has the smaller value. -/
theorem value_lt_value_iff (digits : isRun left = true) (digits' : isRun right = true)
    (same : left.length = right.length) : value left < value right ↔ left < right := by
  induction left generalizing right with
  | nil =>
    obtain rfl := List.eq_nil_of_length_eq_zero same.symm
    simp
  | cons first rest ih =>
    cases right with
    | nil => cases same
    | cons first' rest' =>
      obtain ⟨isDigit, digits⟩ := isRun_cons digits
      obtain ⟨isDigit', digits'⟩ := isRun_cons digits'
      have same : rest.length = rest'.length := Nat.succ.inj same
      have below := value_lt_power digits
      rw [same] at below
      have equal : first.toNat - 48 = first'.toNat - 48 ↔ first = first' := by
        refine ⟨fun values => ?_, fun same => by rw [same]⟩
        rw [← digitChar_rebuild isDigit, values, digitChar_rebuild isDigit']
      rw [value_cons, value_cons, same, mul_add_lt_mul_add_iff below (value_lt_power digits'), List.cons_lt_cons_iff,
        ← ih digits digits' same, digit_lt_iff isDigit isDigit', equal]

/-! ### Forms of numbers -/

/-- A number has so many digits as the integral part of its logarithm says, and one more. -/
theorem count_eq_log (number : Nat) : count number = Nat.log 10 number + 1 := by
  fun_induction count number with
  | case1 number small => rw [Nat.log_of_lt small]
  | case2 number large ih => rw [ih, Nat.log_of_one_lt_of_le (by decide) (Nat.le_of_not_lt large)]

/-- A number with fewer digits is smaller. -/
theorem lt_of_count_lt {number other : Nat} (fewer : count number < count other) : number < other := by
  by_contra large
  have below : other < power (count number) := Nat.lt_of_le_of_lt (Nat.le_of_not_lt large) (lt_power_count number)
  exact Nat.not_lt.mpr (count_le_of_lt_power (count_pos number) below) fewer

/-- **The order of numbers is seen in their forms**: the shorter form is that of the
smaller number, and of two forms of one length the one that comes first. -/
theorem lt_iff_digits {number other : Nat} :
    number < other ↔ (digits number).length < (digits other).length ∨
      (digits number).length = (digits other).length ∧ digits number < digits other := by
  have equal (same : (digits number).length = (digits other).length) :
      number < other ↔ digits number < digits other := by
    rw [← value_lt_value_iff (isRun_digits number) (isRun_digits other) same, value_digits, value_digits]
  rw [length_digits, length_digits] at equal ⊢
  rcases Nat.lt_trichotomy (count number) (count other) with fewer | same | more
  · exact iff_of_true (lt_of_count_lt fewer) (.inl fewer)
  · rw [equal same]
    simp [same]
  · have greater := lt_of_count_lt more
    exact iff_of_false (by omega) (by omega)

end Decimal

namespace Code

variable {text : Text} {code left right : Code}

/-- What is read as a code can be used as one. -/
theorem usable_of_ofDigits? (read : ofDigits? text = some code) : code.Usable := by
  simp only [ofDigits?, Option.ite_none_left_eq_some, Option.ite_none_right_eq_some, Option.some.injEq] at read
  obtain ⟨long, run, noZero, bounded, rfl⟩ := read
  let place := text.length - offsetWidth
  have runs : Decimal.isRun (text.take place) = true ∧ Decimal.isRun (text.drop place) = true := by
    rw [← Bool.and_eq_true, ← Decimal.isRun_append, List.take_append_drop]
    exact run
  have nonempty : text.take place ≠ [] := by
    rw [← List.length_pos_iff, List.length_take]
    omega
  have width : (text.drop place).length = offsetWidth := by
    rw [List.length_drop]
    omega
  have small := Decimal.value_lt_power runs.2
  rw [width] at small
  exact ⟨Decimal.value_pos runs.1 nonempty noZero, bounded, small⟩

/-- The number that a code stands for has its base in front of nine digits. -/
theorem toNat_bounds (usable : code.Usable) : limit ≤ code.toNat ∧ code.toNat < baseBound * limit := by
  obtain ⟨base_pos, base_lt, offset_lt⟩ := usable
  have lower : 1 * limit ≤ code.base * limit := Nat.mul_le_mul_right _ base_pos
  have upper : (code.base + 1) * limit ≤ baseBound * limit := Nat.mul_le_mul_right _ base_lt
  rw [Nat.add_mul] at upper
  unfold toNat
  omega

/-- Every number between the bounds is that of a code. -/
theorem exists_toNat_eq {number : Nat} (lower : limit ≤ number) (upper : number < baseBound * limit) :
    ∃ code : Code, code.Usable ∧ code.toNat = number := by
  have positive : 0 < limit := Decimal.power_pos offsetWidth
  refine ⟨⟨number / limit, number % limit⟩, ⟨?_, ?_, Nat.mod_lt number positive⟩, ?_⟩
  · exact Nat.div_pos lower positive
  · exact (Nat.div_lt_iff_lt_mul positive).mpr upper
  · exact Nat.div_add_mod' number limit

/-- **The texts that read as codes are the decimal forms of the numbers between the bounds.** -/
theorem ofDigits?_isSome_iff :
    (∃ code, ofDigits? text = some code) ↔
      ∃ number, limit ≤ number ∧ number < baseBound * limit ∧ text = Decimal.digits number := by
  constructor
  · rintro ⟨code, read⟩
    have usable := usable_of_ofDigits? read
    obtain ⟨lower, upper⟩ := toNat_bounds usable
    refine ⟨code.toNat, lower, upper, ?_⟩
    rw [eq_digits_of_ofDigits? read, digits_eq_digits_toNat usable.base_pos usable.offset_lt]
  · rintro ⟨number, lower, upper, rfl⟩
    obtain ⟨code, usable, rfl⟩ := exists_toNat_eq lower upper
    refine ⟨code, ?_⟩
    rw [← digits_eq_digits_toNat usable.base_pos usable.offset_lt, ofDigits?_digits usable]

/-- Codes ascend as the numbers they stand for. -/
theorem lt_iff_toNat_lt (offset_lt : left.offset < limit) (offset_lt' : right.offset < limit) :
    left < right ↔ left.toNat < right.toNat := by
  exact (Decimal.mul_add_lt_mul_add_iff offset_lt offset_lt').symm

/-- A code has as many bytes as digits. -/
theorem size_digits (offset_lt : code.offset < limit) : Text.size code.digits = digitCount code := by
  rw [Decimal.size_of_digits fun _ => isDigit_of_mem_digits, length_digits offset_lt]

/-- **The decimal form of a code is faithful.** A code is read back from its form,
whose number of bytes follows from the logarithm of the base. A text reads as a
code only if it is the form of that code, and it does so if and only if it is the
decimal form of a number from `10 ^ 9` up to `2 ^ 128 * 10 ^ 9`. One code comes
before another one if and only if it stands for a smaller number, and if and only
if its form is shorter, or as long and first in character order. -/
theorem decimal_form_faithful :
    (∀ code : Code, code.Usable → ofDigits? code.digits = some code ∧
      code.digitCount = Nat.log 10 code.base + 1 + 9 ∧ code.digitCount = Text.size code.digits) ∧
    (∀ text code, ofDigits? text = some code → code.Usable ∧ code.digits = text) ∧
    (∀ text, ofDigits? text = none ↔
      ¬ ∃ number, 10 ^ 9 ≤ number ∧ number < 2 ^ 128 * 10 ^ 9 ∧ text = Decimal.digits number) ∧
    ∀ left right : Code, left.Usable → right.Usable →
      (left < right ↔ left.base * 10 ^ 9 + left.offset < right.base * 10 ^ 9 + right.offset) ∧
      (left < right ↔ Text.size left.digits < Text.size right.digits ∨
        Text.size left.digits = Text.size right.digits ∧ left.digits < right.digits) := by
  refine ⟨fun code usable => ⟨ofDigits?_digits usable, ?_, (size_digits usable.offset_lt).symm⟩,
    fun text code read => ⟨usable_of_ofDigits? read, (eq_digits_of_ofDigits? read).symm⟩, fun text => ?_,
    fun left right usable usable' => ?_⟩
  · rw [digitCount, Decimal.count_eq_log]
    rfl
  · rw [Option.eq_none_iff_forall_ne_some, ← not_exists]
    exact not_congr ofDigits?_isSome_iff
  · have numbers := lt_iff_toNat_lt usable.offset_lt usable'.offset_lt
    refine ⟨numbers, numbers.trans ?_⟩
    rw [size_digits usable.offset_lt, size_digits usable'.offset_lt, ← length_digits usable.offset_lt,
      ← length_digits usable'.offset_lt, digits_eq_digits_toNat usable.base_pos usable.offset_lt,
      digits_eq_digits_toNat usable'.base_pos usable'.offset_lt]
    exact Decimal.lt_iff_digits

/-- The last code of a base with one digit is read back, and comes before the first one of the next base. -/
theorem last_code_of_nine :
    ofDigits? (List.replicate 10 '9') = some ⟨9, 999999999⟩ ∧ (⟨9, 999999999⟩ : Code) < ⟨10, 0⟩ ∧
      ∃ code, ofDigits? (Decimal.digits (2 ^ 128 * 10 ^ 9 - 1)) = some code := by
  have usable : Usable ⟨9, 999999999⟩ := ⟨by decide, by decide, by decide⟩
  have usable' : Usable ⟨10, 0⟩ := ⟨by decide, by decide, by decide⟩
  have digits_eq : Code.digits ⟨9, 999999999⟩ = List.replicate 10 '9' := by cbv
  have digits_eq' : Code.digits ⟨10, 0⟩ = '1' :: List.replicate 10 '0' := by cbv
  have shorter : Text.size (Code.digits ⟨9, 999999999⟩) < Text.size (Code.digits ⟨10, 0⟩) := by
    rw [digits_eq, digits_eq']
    decide
  obtain ⟨readBack, _, readable, order⟩ := decimal_form_faithful
  refine ⟨?_, (order _ _ usable usable').2.mpr (.inl shorter), ?_⟩
  · rw [← digits_eq]
    exact (readBack _ usable).1
  · rw [← Option.ne_none_iff_exists', ne_eq, readable, not_not]
    exact ⟨_, by decide, by decide, rfl⟩

end Code
end Stencil
