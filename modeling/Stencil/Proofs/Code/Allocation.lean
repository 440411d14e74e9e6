import Stencil.Code.Allocator
import Stencil.Proofs.Code.Digits

/-! Giving out codes. An allocator has a base that does not occur in its text
and counts its calls: each call gives the next number of the base, until all
numbers of the base are used up. The digits of a code are the decimal form of
the number it stands for and begin with the digits of the base, so a code that
occurred in the text would bring the base with it. -/
namespace Stencil

namespace Decimal

/-- A number that is multiplied by a power of ten leaves a field of that width for another one. -/
theorem digits_mul_power_add {base width number : Nat} (positive : 0 < base) (some : 0 < width)
    (below : number < power width) :
    digits (base * power width + number) = digits base ++ padded width number := by
  induction width generalizing number with
  | zero => cases some
  | succ width ih =>
    rw [power_succ] at below ⊢
    rcases Nat.eq_zero_or_pos width with rfl | wide
    · have small : number < 10 := by simpa using below
      have one : count number = 1 := by rw [count, if_pos small]
      rw [power_zero, Nat.one_mul, Nat.mul_comm, digits_append_digit positive small, padded, one,
        digits_of_lt_ten small]
      rfl
    · have last : 10 * (number / 10) + number % 10 = number := Nat.div_add_mod number 10
      have small : number % 10 < 10 := Nat.mod_lt _ (by decide)
      have shorter : number / 10 < power width := by omega
      have front : 0 < base * power width + number / 10 :=
        Nat.add_pos_left (Nat.mul_pos positive (power_pos width)) _
      calc
        digits (base * (power width * 10) + number)
          = digits (10 * (base * power width + number / 10) + number % 10) := by
            congr 1
            rw [← Nat.mul_assoc]
            omega
        _ = digits base ++ padded width (number / 10) ++ [Nat.digitChar (number % 10)] := by
            rw [digits_append_digit front small, ih wide shorter]
        _ = digits base ++ padded (width + 1) number := by
            rw [List.append_assoc, ← padded_append_digit wide small, last]

end Decimal

namespace Code

variable {text : Text} {code left right : Code}

/-- The digits of a code are the decimal form of the number it stands for. -/
theorem digits_eq_digits_toNat (positive : 0 < code.base) (offset_lt : code.offset < limit) :
    code.digits = Decimal.digits code.toNat :=
  (Decimal.digits_mul_power_add positive (by decide) offset_lt).symm

/-- A text that holds the digits of a code holds those of its base. -/
theorem not_occurs_digits (fits : Supply.fits text code.base = true) : Text.occurs code.digits text = false := by
  have absent : ¬ Decimal.digits code.base <:+: text := by
    simp only [Supply.fits, Bool.and_eq_true, Bool.not_eq_true'] at fits
    rw [← Text.occurs_iff, fits.2]
    exact Bool.false_ne_true
  rw [← Bool.not_eq_true, Text.occurs_iff]
  intro present
  have begins : Decimal.digits code.base <+: code.digits := List.prefix_append _ _
  exact absent (begins.isInfix.trans present)

theorem ne_of_lt (less : left < right) : left ≠ right := by
  rintro rfl
  rcases less with base | ⟨_, offset⟩
  · exact Nat.lt_irrefl _ base
  · exact Nat.lt_irrefl _ offset

end Code

namespace Supply

/-- A draw takes the first number or goes on with the supply without it. -/
theorem exists_later (supply : Supply) : ∃ later : Supply, (∀ index, supply.nth (index + 1) = later.nth index) ∧
    ∀ text, draw text supply =
      if fits text (supply.nth 0) then ⟨[], supply.nth 0, later⟩
      else { draw text later with rejected := supply.nth 0 :: (draw text later).rejected } := by
  obtain ⟨queued, fresh⟩ := supply
  cases queued with
  | cons first queued =>
    refine ⟨⟨queued, fresh⟩, fun index => ?_, fun text => ?_⟩
    · simp [nth]
    · rw [draw]
      rfl
  | nil =>
    refine ⟨⟨[], fresh + 1⟩, fun index => ?_, fun text => ?_⟩
    · simp [nth, Nat.add_comm, Nat.add_left_comm]
    · have first : nth ⟨[], fresh⟩ 0 = fresh := rfl
      rw [draw, first]
      by_cases fit : fits text fresh = true
      · simp [fit]
      · simp [fit]

/-- What a draw does: the numbers before the first that fits are rejected in
order, and the supply goes on behind it. -/
theorem draw_eq {text : Text} {supply : Supply} {count : Nat}
    (unfit : ∀ earlier < count, fits text (supply.nth earlier) = false)
    (fit : fits text (supply.nth count) = true) :
    ∃ later : Supply, (∀ index, later.nth index = supply.nth (count + 1 + index)) ∧
      draw text supply = ⟨(List.range count).map supply.nth, supply.nth count, later⟩ := by
  induction count generalizing supply with
  | zero =>
    obtain ⟨later, next, first_eq⟩ := supply.exists_later
    refine ⟨later, fun index => ?_, ?_⟩
    · rw [Nat.zero_add, Nat.add_comm, next]
    · rw [first_eq, if_pos fit]
      rfl
  | succ count ih =>
    obtain ⟨rest, next, first_eq⟩ := supply.exists_later
    have unfit_first : ¬ fits text (supply.nth 0) = true := by simp [unfit 0]
    rw [next] at fit
    obtain ⟨later, behind, draw_rest⟩ := ih
      (fun earlier below => by
        rw [← next]
        exact unfit (earlier + 1) (Nat.succ_lt_succ below))
      fit
    refine ⟨later, fun index => ?_, ?_⟩
    · rw [behind, ← next]
      congr 1
      omega
    · have numbers : supply.nth ∘ Nat.succ = rest.nth := funext next
      rw [first_eq, if_neg unfit_first, draw_rest, List.range_succ_eq_map, List.map_cons, List.map_map, numbers, next]

/-- The base that is drawn is the first number of the supply that fits. -/
theorem base_draw {text : Text} {supply : Supply} {count : Nat}
    (unfit : ∀ earlier < count, fits text (supply.nth earlier) = false)
    (fit : fits text (supply.nth count) = true) : (draw text supply).base = supply.nth count := by
  obtain ⟨later, _, drawn⟩ := draw_eq unfit fit
  rw [drawn]

end Supply

namespace Allocator

/-- What one call does: it gives the next number and counts, or does nothing. -/
theorem call_eq (allocator : Allocator) :
    allocator.call =
      if allocator.next < Code.limit then
        (some ⟨allocator.base, allocator.next⟩, { allocator with next := allocator.next + 1 })
      else (none, allocator) := by
  rw [call, Code.nth?]
  by_cases left : allocator.next < Code.limit
  · rw [if_pos left, if_pos left]
  · rw [if_neg left, if_neg left]

/-- What a run of calls does: the numbers of the base come in order. -/
theorem result_eq (allocator : Allocator) (index : Nat) :
    allocator.result index = Code.nth? allocator.base (allocator.next + index) := by
  induction index generalizing allocator with
  | zero =>
    rw [result, call_eq]
    by_cases left : allocator.next < Code.limit
    · simp [left, Code.nth?]
    · simp [left, Code.nth?]
  | succ index ih =>
    rw [result, ih, call_eq]
    by_cases left : allocator.next < Code.limit
    · rw [if_pos left, Nat.add_right_comm, Nat.add_assoc]
    · have used : ¬ allocator.next + index < Code.limit := by omega
      have used' : ¬ allocator.next + (index + 1) < Code.limit := by omega
      simp only [if_neg left, Code.nth?, if_neg used, if_neg used']

/-- Rejected numbers make no difference to the allocator. -/
theorem ofSupply_eq {text : Text} {supply : Supply} {count : Nat}
    (unfit : ∀ earlier < count, Supply.fits text (supply.nth earlier) = false)
    (fits : Supply.fits text (supply.nth count) = true) : ofSupply text supply = ⟨supply.nth count, 0⟩ := by
  rw [ofSupply, Supply.base_draw unfit fits]

/-- A result below the limit is a number of the base, and there are no others. -/
theorem result_eq_some_iff {base index : Nat} {code : Code} :
    result ⟨base, 0⟩ index = some code ↔ index < Code.limit ∧ code = ⟨base, index⟩ := by
  rw [result_eq, Nat.zero_add, Code.nth?, Option.ite_none_right_eq_some, Option.some.injEq]
  exact and_congr_right fun _ => eq_comm

end Allocator
end Stencil
