import Stencil.Text.WidthClass

/-! Letters of several scripts that are written as one. A ligature takes the
columns of one letter. It is recognised from its end; so a letter that can end
one is remembered until the letter before it is known. Marks that are not shown
may stand in between. -/

namespace Stencil.Text

/-- The end of a ligature, as far as it has been read. -/
inductive Ligature where
  /-- The Arabic letter alef, which follows a lam. -/
  | alef
  /-- The Hebrew letter lamed, and whether a joiner stands before it. -/
  | lamed (joined : Bool)
  /-- A Khmer letter that can be written below the one before it. -/
  | coengLetter
  /-- The Buginese letter ya, and whether a joiner stands before it. -/
  | ya (joined : Bool)
  /-- The Buginese vowel sign i, a joiner and the letter ya. -/
  | vowelAndYa
  /-- A Tifinagh consonant, and whether a joiner stands before it. -/
  | tifinagh (joined : Bool)
  /-- The consonant joiner of Tifinagh and a consonant. -/
  | tifinaghJoiner
  /-- A Lisu tone letter that combines with one before it. -/
  | lisuTone
  /-- The Old Turkic letter i, and whether a joiner stands before it. -/
  | turkicI (joined : Bool)
deriving DecidableEq, Repr

/-- The zero width joiner. -/
def joiner : Char := '\u200D'

/-- The Tifinagh consonants. -/
def isTifinaghConsonant (character : Char) : Bool :=
  isBetween 0x2D31 0x2D65 character || character = '\u2D6F'

/-- The Khmer letters that can be written below another. -/
def isCoengLetter (character : Char) : Bool :=
  isBetween 0x1780 0x1782 character || isBetween 0x1784 0x1787 character ||
    isBetween 0x1789 0x178C character || isBetween 0x178E 0x1793 character ||
    isBetween 0x1795 0x1798 character || isBetween 0x179B 0x179D character ||
    character = '\u17A0' || character = '\u17A2' || character = '\u17A7' ||
    isBetween 0x17AB 0x17AC character || character = '\u17AF'

/-- The Arabic letters of the form of alef. -/
def isAlef (character : Char) : Bool :=
  isBetween 0x622 0x623 character || character = '\u0625' || character = '\u0627' ||
    isBetween 0x671 0x673 character || character = '\u0675' || isBetween 0x773 0x774 character ||
    isBetween 0x870 0x882 character

/-- The Arabic letters of the form of lam. -/
def isLam (character : Char) : Bool :=
  character = '\u0644' || isBetween 0x6B5 0x6B8 character || character = '\u076A' ||
    character = '\u08A6' || character = '\u08C7'

/-- The marks that are never shown: they may stand inside of a ligature of any script. -/
def isHiddenMark (character : Char) : Bool :=
  character = '\u034F' || isBetween 0x17B4 0x17B5 character || isBetween 0x180B 0x180D character ||
    character = '\u180F' || isBetween 0xFE00 0xFE0F character || isBetween 0xE0100 0xE01EF character

namespace Ligature

/-- The ligature that a character can end. -/
def ofChar? (character : Char) : Option Ligature :=
  if isAlef character then some .alef
  else if character = '\u05DC' then some (.lamed false)
  else if isCoengLetter character then some .coengLetter
  else if character = '\u1A10' then some (.ya false)
  else if isTifinaghConsonant character then some (.tifinagh false)
  else if isBetween 0xA4FC 0xA4FD character then some .lisuTone
  else if character.toNat = 0x10C03 then some (.turkicI false)
  else none

/-- A ligature with a joiner put in front of it. A joiner keeps Arabic letters
apart; all other ligatures either need it or are not changed by it. -/
def join? : Ligature → Option Ligature
  | .alef => none
  | .lamed _ => some (.lamed true)
  | .ya _ => some (.ya true)
  | .tifinagh _ => some (.tifinagh true)
  | .turkicI _ => some (.turkicI true)
  | .coengLetter => some .coengLetter
  | .vowelAndYa => some .vowelAndYa
  | .tifinaghJoiner => some .tifinaghJoiner
  | .lisuTone => some .lisuTone

/-- Whether a mark in front of a ligature is passed over. -/
def admits : Ligature → Char → Bool
  | .alef => isTransparent
  | _ => isHiddenMark

/-- A letter that a ligature takes in: how much wider the text becomes by it,
and what the letter before it has to look out for. -/
def take? : Ligature → Char → Option (Int × Option Ligature)
  | .alef, letter => if isLam letter then some (0, none) else none
  | .lamed joined, letter => if joined && letter = '\u05D0' then some (0, none) else none
  | .coengLetter, letter => if letter = '\u17D2' then some (-1, none) else none
  | .ya joined, letter => if joined && letter = '\u1A17' then some (0, some .vowelAndYa) else none
  | .vowelAndYa, letter => if letter = '\u1A15' then some (0, none) else none
  | .tifinagh joined, letter =>
    if letter = '\u2D7F' then some (1, some .tifinaghJoiner)
    else if joined && isTifinaghConsonant letter then some (0, none)
    else none
  | .tifinaghJoiner, letter => if isTifinaghConsonant letter then some (-1, none) else none
  | .lisuTone, letter => if isBetween 0xA4F8 0xA4FB letter then some (0, none) else none
  | .turkicI joined, letter => if joined && letter.toNat = 0x10C32 then some (0, none) else none

/-- A character in front of a ligature, if it belongs to it: how much wider the
text becomes by it, and what is left of the ligature. -/
def add? (ligature : Ligature) (character : Char) : Option (Int × Option Ligature) :=
  if character = joiner then ligature.join?.map fun joined => (0, some joined)
  else if ligature.admits character then some (0, some ligature)
  else ligature.take? character

end Ligature

end Stencil.Text
