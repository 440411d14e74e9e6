import Mathlib.Tactic.IntervalCases
import Stencil.Json.Escape
import Stencil.Proofs.Document.Grammar

/-! Escaped texts are contents of string literals: whatever a text says, it
stays between the quotes that are put around it. -/
namespace Stencil.Json

open Document (Contents)

private theorem isHexDigit_digitChar {digit : Nat} (small : digit < 16) :
    Text.isHexDigit (Nat.digitChar digit) = true := by
  interval_cases digit <;> rfl

/-- A character that has no short escape and is no control character stands for itself. -/
theorem contents_escapeChar (character : Char) : Contents (escapeChar character) := by
  unfold escapeChar
  split
  case h_8 noQuote noBackslash _ _ _ _ _ =>
    split
    · rename_i control
      refine .unicode rfl rfl ?_ ?_ .nil
      · exact isHexDigit_digitChar (by omega)
      · exact isHexDigit_digitChar (by omega)
    · rename_i noControl
      exact .plain noQuote noBackslash noControl .nil
  all_goals exact .short rfl .nil

/-- **An escaped text neither ends the string literal around it nor is refused in it.** -/
theorem contents_escape (text : Text) : Contents (escape text) := by
  induction text with
  | nil => exact .nil
  | cons character rest ih => exact (contents_escapeChar character).append ih

end Stencil.Json
