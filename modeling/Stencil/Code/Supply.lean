import Stencil.Code.Basic

/-! The supply of bases. A base fits a text when its decimal form does not
occur there, because then no code of the base occurs there either. The first
fitting base of the supply is taken. That this search ends needs no bound on
it: once the queue is used up the numbers grow, and a number with more digits
than the text has characters cannot occur in it. -/

namespace Stencil

/-- The numbers that bases are drawn from: first the queued ones, then `fresh`,
`fresh + 1` and so on. -/
structure Supply where
  queued : List Nat
  fresh : Nat
deriving DecidableEq, Repr

namespace Supply

/-- The supply that nothing was queued to or drawn from. -/
def initial : Supply := ⟨[], 271828182845904523536028747135266249775⟩

/-- Puts more numbers at the end of the queue. -/
def enqueue (supply : Supply) (bases : List Nat) : Supply :=
  { supply with queued := supply.queued ++ bases }

/-- The number that a supply gives after `index` others. -/
def nth (supply : Supply) (index : Nat) : Nat :=
  supply.queued.getD index (supply.fresh + (index - supply.queued.length))

/-- A base fits a text if it is not zero and its decimal form does not occur in the text. -/
def fits (text : Text) (base : Nat) : Bool :=
  base != 0 && !Text.occurs (Decimal.digits base) text

/-- A number that does not fit has no more digits than the text has characters. -/
theorem lt_of_not_fits {text : Text} {base : Nat} (unfit : fits text base = false) :
    base < Decimal.power text.length := by
  rcases Nat.eq_zero_or_pos base with rfl | positive
  · exact Decimal.power_pos _
  · have occurs : Text.occurs (Decimal.digits base) text = true := by
      simpa [fits, Nat.ne_of_gt positive] using unfit
    have fewer := (Text.occurs_iff.mp occurs).length_le
    rw [Decimal.length_digits] at fewer
    exact Nat.lt_of_lt_of_le (Decimal.lt_power_count base) (Decimal.power_le_power fewer)

/-- The outcome of a draw: the numbers that did not fit, in the order in which
they were drawn, the base that did, and the supply after it. -/
structure Draw where
  rejected : List Nat
  base : Nat
  supply : Supply
deriving DecidableEq, Repr

/-- Draws numbers until one fits the text. -/
def draw (text : Text) : Supply → Draw
  | ⟨base :: queued, fresh⟩ =>
    if fits text base then ⟨[], base, ⟨queued, fresh⟩⟩
    else
      let later := draw text ⟨queued, fresh⟩
      { later with rejected := base :: later.rejected }
  | ⟨[], fresh⟩ =>
    if unfit : fits text fresh = false then
      let later := draw text ⟨[], fresh + 1⟩
      { later with rejected := fresh :: later.rejected }
    else ⟨[], fresh, ⟨[], fresh + 1⟩⟩
termination_by supply => supply.queued.length + (Decimal.power text.length - supply.fresh)
decreasing_by
  · simp
  · have bounded := lt_of_not_fits unfit
    simp only [List.length_nil, Nat.zero_add]
    omega

/-- The drawn base fits. -/
theorem fits_draw (text : Text) (supply : Supply) : fits text (draw text supply).base = true := by
  fun_induction draw text supply with
  | case1 base queued fresh fit => exact fit
  | case2 base queued fresh unfit later ih => exact ih
  | case3 fresh unfit later ih => exact ih
  | case4 fresh fit => simpa using fit

end Supply
end Stencil
