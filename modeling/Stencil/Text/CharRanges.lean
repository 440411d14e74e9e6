/-! Sets of characters, as ranges of code points. -/

namespace Stencil.Text

/-- Whether a character's code point lies in the given range. -/
def isBetween (first last : Nat) (character : Char) : Bool :=
  first ≤ character.toNat && character.toNat ≤ last

/-- A set of characters: the first and last code point of each of its ranges, in ascending order. -/
abbrev CharRanges := List (Nat × Nat)

/-- Whether a character is in a set. The search ends at the first range above the character. -/
def CharRanges.contains : CharRanges → Char → Bool
  | [], _ => false
  | (first, last) :: later, character =>
    if character.toNat < first then false
    else character.toNat ≤ last || CharRanges.contains later character

end Stencil.Text
