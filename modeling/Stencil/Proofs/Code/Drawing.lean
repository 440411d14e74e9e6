import Mathlib.Data.Finset.Card
import Mathlib.Data.Finset.Prod
import Mathlib.Data.Finset.Insert
import Mathlib.Data.Nat.Find
import Stencil.Proofs.Code.Allocation
import Stencil.Proofs.Template.Acceptance

/-! The search for a base ends. A number that cannot be used is zero or stands in
the text. The decimal form of a number of 128 bits has at most 39 digits, so it
is told by the place where it begins and by its length, and a text of `n` bytes
holds at most `39 * n` of them. Hence of `39 * n + 2` different numbers one can
be used, whatever they are and wherever they come from. -/
namespace Stencil

variable {text : Text} {numbers : Nat → Nat} {count turns : Nat}

/-! ### The loop -/

namespace Search

/-- A turn of a search that goes on draws one number. -/
theorem turn_drawing (drawn : List Nat) :
    turn text numbers ⟨drawn, none⟩ = ⟨drawn ++ [numbers drawn.length],
      if Supply.fits text (numbers drawn.length) then some (numbers drawn.length) else none⟩ := rfl

/-- A turn of a search that has ended does nothing. -/
theorem turn_taken (drawn : List Nat) (base : Nat) :
    turn text numbers ⟨drawn, some base⟩ = ⟨drawn, some base⟩ := rfl

/-- As long as no number fits, every turn draws one. -/
theorem after_unfit (unfit : ∀ earlier < turns, Supply.fits text (numbers earlier) = false) :
    after text numbers turns = ⟨(List.range turns).map numbers, none⟩ := by
  induction turns with
  | zero => rfl
  | succ turns ih =>
    have drawing := ih fun earlier below => unfit earlier (Nat.lt_succ_of_lt below)
    rw [after, drawing, turn_drawing, List.length_map, List.length_range, unfit turns (Nat.lt_succ_self turns),
      List.range_succ, List.map_append]
    rfl

/-- The first number that fits is taken, and it is the last that is drawn. -/
theorem after_fit (unfit : ∀ earlier < count, Supply.fits text (numbers earlier) = false)
    (fit : Supply.fits text (numbers count) = true) (later : count < turns) :
    after text numbers turns = ⟨(List.range (count + 1)).map numbers, some (numbers count)⟩ := by
  induction turns, later using Nat.le_induction with
  | base =>
    rw [after, after_unfit unfit, turn_drawing, List.length_map, List.length_range, if_pos fit, List.range_succ,
      List.map_append]
    rfl
  | succ turns _ ih => rw [after, ih, turn_taken]

/-- The search ends with the number that is drawn after `count` others: this one
is not zero and does not stand in the text, each number before it is zero or
stands there, and no number is drawn after it. -/
structure EndsAfter (text : Text) (numbers : Nat → Nat) (count : Nat) : Prop where
  nonzero : numbers count ≠ 0
  absent : Text.occurs (Decimal.digits (numbers count)) text = false
  rejected : ∀ earlier < count, numbers earlier = 0 ∨ Text.occurs (Decimal.digits (numbers earlier)) text = true
  drawing : ∀ turns ≤ count, after text numbers turns = ⟨(List.range turns).map numbers, none⟩
  ended : ∀ turns > count,
    after text numbers turns = ⟨(List.range (count + 1)).map numbers, some (numbers count)⟩

end Search

namespace Supply

theorem fits_eq_true_iff {base : Nat} :
    fits text base = true ↔ base ≠ 0 ∧ Text.occurs (Decimal.digits base) text = false := by
  simp [fits]

theorem fits_eq_false_iff {base : Nat} :
    fits text base = false ↔ base = 0 ∨ Text.occurs (Decimal.digits base) text = true := by
  rw [← Bool.not_eq_true, fits_eq_true_iff, not_and_or, not_not, Bool.not_eq_false]

end Supply

/-- The search ends with the first number that fits. -/
theorem Search.endsAfter (unfit : ∀ earlier < count, Supply.fits text (numbers earlier) = false)
    (fit : Supply.fits text (numbers count) = true) : EndsAfter text numbers count where
  nonzero := (Supply.fits_eq_true_iff.mp fit).1
  absent := (Supply.fits_eq_true_iff.mp fit).2
  rejected earlier below := Supply.fits_eq_false_iff.mp (unfit earlier below)
  drawing _ few := after_unfit fun earlier below => unfit earlier (Nat.lt_of_lt_of_le below few)
  ended _ many := after_fit unfit fit many

/-! ### How many numbers a text holds -/

/-- Bases have at most this many digits. -/
def Code.baseWidth : Nat := 39

theorem Code.baseBound_le_power : baseBound ≤ Decimal.power baseWidth := by decide

/-- The numbers whose decimal form could stand in a text, by the place where it
begins and by its length less one. -/
def Text.slices (text : Text) : Finset Nat :=
  (Finset.range text.length ×ˢ Finset.range Code.baseWidth).image fun (start, length) =>
    Decimal.value ((text.drop start).take (length + 1))

theorem Text.card_slices_le (text : Text) : text.slices.card ≤ Code.baseWidth * text.length := by
  refine Finset.card_image_le.trans (Nat.le_of_eq ?_)
  rw [Finset.card_product, Finset.card_range, Finset.card_range, Nat.mul_comm]

/-- A number of 128 bits that stands in a text is one of its slices. -/
theorem Text.mem_slices {base : Nat} (bounded : base < Code.baseBound)
    (occurs : Text.occurs (Decimal.digits base) text = true) : base ∈ text.slices := by
  obtain ⟨front, back, division⟩ := Text.occurs_iff.mp occurs
  have digits_pos := Decimal.count_pos base
  have digits_le : Decimal.count base ≤ Code.baseWidth :=
    Decimal.count_le_of_lt_power (by decide) (Nat.lt_of_lt_of_le bounded Code.baseBound_le_power)
  refine Finset.mem_image.mpr ⟨(front.length, Decimal.count base - 1), ?_, ?_⟩
  · rw [Finset.mem_product, Finset.mem_range, Finset.mem_range, ← division]
    simp only [List.length_append, Decimal.length_digits]
    omega
  · have length_eq : Decimal.count base - 1 + 1 = (Decimal.digits base).length := by
      rw [Decimal.length_digits]
      omega
    simp only [length_eq]
    rw [← division, List.append_assoc, List.drop_left, List.take_left, Decimal.value_digits]

theorem Text.length_le_size (text : Text) : text.length ≤ Text.size text := by
  induction text with
  | nil => exact Nat.le_refl 0
  | cons character rest ih =>
    have positive := character.utf8Size_pos
    rw [List.length_cons, Text.size_cons]
    omega

/-- So many different numbers are more than a text can hold, together with the zero. -/
def Text.drawLimit (text : Text) : Nat := 39 * Text.size text + 2

/-- The first numbers of a generator are different numbers of 128 bits. -/
structure AreDistinct (numbers : Nat → Nat) (count : Nat) : Prop where
  bounded : ∀ index < count, numbers index < Code.baseBound
  injective : ∀ index < count, ∀ other < count, numbers index = numbers other → index = other

/-- **Of enough different numbers one fits**, because those that do not fit are fewer. -/
theorem AreDistinct.exists_fits (distinct : AreDistinct numbers text.drawLimit) :
    ∃ index < text.drawLimit, Supply.fits text (numbers index) = true := by
  have few : (insert 0 text.slices).card < ((Finset.range text.drawLimit).image numbers).card := by
    have injective : Set.InjOn numbers (Finset.range text.drawLimit) := by
      intro index below other below'
      exact distinct.injective index (Finset.mem_range.mp below) other (Finset.mem_range.mp below')
    rw [Finset.card_image_of_injOn injective, Finset.card_range]
    have slices := Finset.card_insert_le 0 text.slices
    have bound := text.card_slices_le
    have length := Nat.mul_le_mul_left Code.baseWidth text.length_le_size
    simp only [Text.drawLimit, Code.baseWidth] at bound length ⊢
    omega
  obtain ⟨base, drawn, outside⟩ := Finset.exists_mem_notMem_of_card_lt_card few
  obtain ⟨index, below, rfl⟩ := Finset.mem_image.mp drawn
  have below := Finset.mem_range.mp below
  refine ⟨index, below, ?_⟩
  by_contra unfit
  rcases Supply.fits_eq_false_iff.mp (Bool.not_eq_true _ ▸ unfit) with zero | occurs
  · exact outside (zero ▸ Finset.mem_insert_self 0 text.slices)
  · exact outside (Finset.mem_insert_of_mem (Text.mem_slices (distinct.bounded index below) occurs))

/-! ### The search ends -/

theorem queuedBefore_add (queue : List Nat) (numbers : Nat → Nat) (index : Nat) :
    queuedBefore queue numbers (queue.length + index) = numbers index := by
  rw [queuedBefore, Nat.add_sub_cancel_left, List.getD_eq_getElem?_getD, List.getElem?_eq_none (Nat.le_add_right _ _),
    Option.getD_none]

/-- The search comes to an end behind the queue at the latest. -/
theorem Search.exists_endsAfter (queue : List Nat) (distinct : AreDistinct numbers text.drawLimit) :
    ∃ count, count + 1 ≤ queue.length + text.drawLimit ∧ EndsAfter text (queuedBefore queue numbers) count := by
  obtain ⟨index, below, fits⟩ := distinct.exists_fits
  rw [← queuedBefore_add queue numbers index] at fits
  have reached : ∃ count, Supply.fits text (queuedBefore queue numbers count) = true := ⟨_, fits⟩
  refine ⟨Nat.find reached, ?_, endsAfter (fun earlier before => ?_) (Nat.find_spec reached)⟩
  · have first := Nat.find_min' reached fits
    omega
  · exact Bool.eq_false_of_not_eq_true (Nat.find_min reached before)

/-- A draw from a supply is the search with the numbers of the supply. -/
theorem Search.EndsAfter.draw_eq {supply : Supply} (ends : EndsAfter text supply.nth count) :
    ∃ later : Supply, (∀ index, later.nth index = supply.nth (count + 1 + index)) ∧
      Supply.draw text supply = ⟨(List.range count).map supply.nth, supply.nth count, later⟩ :=
  Supply.draw_eq (fun earlier before => Supply.fits_eq_false_iff.mpr (ends.rejected earlier before))
    (Supply.fits_eq_true_iff.mpr ⟨ends.nonzero, ends.absent⟩)

/-- **Drawing a base always ends, with the first number that fits.** With different
numbers of 128 bits it takes at most `39 * n + 2` draws for a text of `n` bytes;
with any queue in front of them as many more as the queue is long, and then the
source compiles or is refused. In this way a supply is drawn from while a
template is made: the numbers before the base are rejected, and what is left of
the supply begins right behind it. -/
theorem drawing_ends (text : Text) :
    (∀ numbers, AreDistinct numbers (39 * Text.size text + 2) →
      ∃ count, count + 1 ≤ 39 * Text.size text + 2 ∧ Search.EndsAfter text numbers count) ∧
    (∀ queue numbers, AreDistinct numbers (39 * Text.size text + 2) →
      ∃ count, count + 1 ≤ queue.length + (39 * Text.size text + 2) ∧
        Search.EndsAfter text (queuedBefore queue numbers) count ∧
        ∀ config, ∀ turns > count, Template.compileAfter config text (queuedBefore queue numbers) turns =
          some (Template.compile config text (queuedBefore queue numbers count))) ∧
    ∀ supply : Supply, supply.fresh + (39 * Text.size text + 2) ≤ Code.baseBound →
      ∃ count later, count + 1 ≤ supply.queued.length + (39 * Text.size text + 2) ∧
        Search.EndsAfter text supply.nth count ∧
        Supply.draw text supply = ⟨(List.range count).map supply.nth, supply.nth count, later⟩ ∧
        (∀ index, later.nth index = supply.nth (count + 1 + index)) ∧
        ∀ config, (Template.make config text supply).result =
          (Template.compile config text (supply.nth count)).map Compiled.template := by
  refine ⟨fun numbers distinct => ?_, fun queue numbers distinct => ?_, fun supply inBounds => ?_⟩
  · obtain ⟨count, few, ends⟩ := Search.exists_endsAfter [] distinct
    rw [List.length_nil, Nat.zero_add] at few
    exact ⟨count, few, ends⟩
  · obtain ⟨count, few, ends⟩ := Search.exists_endsAfter queue distinct
    refine ⟨count, few, ends, fun config turns many => ?_⟩
    rw [Template.compileAfter, ends.ended turns many]
    rfl
  · have distinct : AreDistinct (supply.fresh + ·) text.drawLimit :=
      ⟨fun index below => Nat.lt_of_lt_of_le (Nat.add_lt_add_left below _) inBounds,
        fun index _ other _ same => Nat.add_left_cancel same⟩
    obtain ⟨count, few, ends⟩ := Search.exists_endsAfter supply.queued distinct
    have ends : Search.EndsAfter text supply.nth count := ends
    obtain ⟨later, behind, drawn⟩ := ends.draw_eq
    refine ⟨count, later, few, ends, drawn, behind, fun config => ?_⟩
    rw [result_make, drawn]

/-- A text in which the numbers from one to five stand. -/
def crowdedText : Text := ['[', '1', '2', '3', '4', '5', ',', ' ', '1', ']']

/-- A zero, numbers of two and three digits that stand in the text, and after the
queue those of one digit are all rejected before the six. -/
theorem six_is_taken : Search.after crowdedText (queuedBefore [0, 12, 345] (· + 1)) 9 =
    ⟨[0, 12, 345, 1, 2, 3, 4, 5, 6], some 6⟩ := by
  have distinct : AreDistinct (· + 1) (39 * Text.size crowdedText + 2) := by
    refine ⟨fun index below => ?_, fun index _ other _ same => Nat.succ.inj same⟩
    exact Nat.lt_of_lt_of_le (Nat.succ_lt_succ below) (by decide)
  obtain ⟨count, _, ends, _⟩ := (drawing_ends crowdedText).2.1 [0, 12, 345] (· + 1) distinct
  have fits : Text.occurs (Decimal.digits (queuedBefore [0, 12, 345] (· + 1) 8)) crowdedText = false := by decide
  have count_le : count ≤ 8 := by
    by_contra later
    rcases ends.rejected 8 (Nat.lt_of_not_le later) with zero | occurs
    · cases zero
    · rw [fits] at occurs
      cases occurs
  have last : ∀ earlier < 8, queuedBefore [0, 12, 345] (· + 1) earlier = 0 ∨
      Text.occurs (Decimal.digits (queuedBefore [0, 12, 345] (· + 1) earlier)) crowdedText = true := by decide
  have count_eq : count = 8 := by
    by_contra other
    rcases last count (Nat.lt_of_le_of_ne count_le other) with zero | occurs
    · exact ends.nonzero zero
    · rw [ends.absent] at occurs
      cases occurs
  subst count_eq
  exact ends.ended 9 (by decide)

end Stencil
