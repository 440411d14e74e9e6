import Stencil.Text.Ligature

/-! Emoji that consist of several characters: an emoji with a skin tone, flags,
keycaps, and emoji joined to one. Such a sequence takes the columns of one
emoji. It is recognised from its end; so what has been read of it is remembered
until the character before it is known. -/

namespace Stencil.Text

/-- The end of an emoji sequence, as far as it has been read. -/
inductive EmojiSequence where
  /-- An emoji, which is complete. -/
  | emoji
  | skinTone
  /-- One of the letters that flags are spelt with. -/
  | flagLetter
  /-- Two or more of the letters that flags are spelt with. -/
  | flagLetters
  /-- A joiner and an emoji. -/
  | joined
  /-- The frame of a keycap, a joiner and an emoji. -/
  | joinedKeycap
  /-- A letter of a flag, a joiner and an emoji. -/
  | joinedFlagLetter
  /-- Two or more letters of flags, a joiner and an emoji, and whether one
  letter is left over when the others are paired from the end. -/
  | joinedFlags (isOdd : Bool)
  /-- The spelling of a region in tags, a joiner and an emoji: how many letters
  have been read, and how many digits before those. -/
  | joinedRegion (letters digits : Nat)
deriving DecidableEq, Repr

/-- The letters that flags are spelt with. -/
def isFlagLetter (character : Char) : Bool := isBetween 0x1F1E6 0x1F1FF character

/-- The five skin tones. -/
def isSkinTone (character : Char) : Bool := isBetween 0x1F3FB 0x1F3FF character

/-- The letters among the tags. -/
def isTagLetter (character : Char) : Bool := isBetween 0xE0061 0xE007A character

/-- The digits among the tags. -/
def isTagDigit (character : Char) : Bool := isBetween 0xE0030 0xE0039 character

/-- The tag that ends a sequence of tags. -/
def isLastTag (character : Char) : Bool := character.toNat = 0xE007F

/-- The black flag, which the name of a region follows in tags. -/
def isBlackFlag (character : Char) : Bool := character.toNat = 0x1F3F4

/-- Whether so many letters, and so many digits before them, spell a region. -/
def isRegionLength (letters digits : Nat) : Bool :=
  if digits = 0 then 3 ≤ letters && letters ≤ 6 else digits = 3

namespace EmojiSequence

/-- The sequence that a character can end. -/
def ofChar? (character : Char) : Option EmojiSequence :=
  if isSkinTone character then some .skinTone
  else if isFlagLetter character then some .flagLetter
  else if emojiPresentation.contains character then some .emoji
  else none

/-- Whether a joiner in front of a sequence joins it to an emoji before it. -/
def isJoinable : EmojiSequence → Bool
  | .emoji | .skinTone | .flagLetters | .joinedFlags _ => true
  | .flagLetter | .joined | .joinedKeycap | .joinedFlagLetter | .joinedRegion _ _ => false

/-- A character that a sequence takes in: how much wider the text becomes by
it, and what has been read with it. -/
def take? : EmojiSequence → Char → Option (Int × EmojiSequence)
  | .emoji, _ | .joinedKeycap, _ => none
  | .skinTone, character => if emojiModifierBase.contains character then some (0, .emoji) else none
  | .flagLetter, character | .flagLetters, character =>
    if isFlagLetter character then some (1, .flagLetters) else none
  | .joined, character =>
    if character = '\u20E3' then some (0, .joinedKeycap)
    else if isFlagLetter character then some (1, .joinedFlagLetter)
    else if isLastTag character then some (0, .joinedRegion 0 0)
    else (ofChar? character).map fun sequence => (0, sequence)
  | .joinedFlagLetter, character =>
    if isFlagLetter character then some (-1, .joinedFlags false) else none
  | .joinedFlags isOdd, character =>
    if isFlagLetter character then
      some (if isOdd then (-1, .joinedFlags false) else (3, .joinedFlags true))
    else none
  | .joinedRegion letters digits, character =>
    if isTagLetter character && digits = 0 && letters < 6 then
      some (0, .joinedRegion (letters + 1) 0)
    else if isTagDigit character && (if digits = 0 then letters ≤ 4 else digits < 3) then
      some (0, .joinedRegion letters (digits + 1))
    else if isBlackFlag character && isRegionLength letters digits then some (0, .emoji)
    else none

/-- A character in front of a sequence, if it belongs to it. -/
def add? (sequence : EmojiSequence) (character : Char) : Option (Int × EmojiSequence) :=
  if character = joiner then (if sequence.isJoinable then some (0, .joined) else none)
  else sequence.take? character

/-- Whether an emoji that is asked for in the emoji style is joined to the sequence. -/
def awaitsEmoji : EmojiSequence → Bool
  | .joined | .joinedKeycap => true
  | _ => false

end EmojiSequence

end Stencil.Text
