import Stencil.Text.Basic
import Stencil.Text.EmojiSequence

/-! The number of columns that a text takes on a terminal. Mostly this is the
sum over its characters: none for marks and ignorable code points, two for wide
characters, one for all others, controls included. Ligatures and emoji
sequences take less than that, and the two variation selectors U+FE0E and
U+FE0F choose between the narrow and the wide form of an emoji; so the sum is
built from the right, and every character is told what follows it. -/

namespace Stencil.Text

/-- What follows a character, as far as it changes the character's width. -/
inductive Following where
  | nothing
  | lineFeed
  | ligature (ligature : Ligature)
  | emoji (sequence : EmojiSequence)
deriving DecidableEq, Repr

/-- The two styles of an emoji that a variation selector can ask for. -/
inductive EmojiStyle where
  | emoji
  | text
deriving DecidableEq, Repr

/-- What follows a character: the style that is asked for, if any, and what
stands behind that request. -/
structure Context where
  style : Option EmojiStyle
  following : Following
deriving DecidableEq, Repr

/-- The width of a character by itself. -/
def charWidth (character : Char) : Nat :=
  if isZeroWidth character then 0
  else if character = '\u17D8' then 3
  else if wide.contains character then 2
  else 1

/-- The style that a character asks for. -/
def EmojiStyle.ofChar? (character : Char) : Option EmojiStyle :=
  if character = '\uFE0F' then some .emoji
  else if character = '\uFE0E' then some .text
  else none

namespace Following

/-- What a character by itself is for the character before it. -/
def ofChar (character : Char) : Following :=
  if character = '\n' then .lineFeed
  else
    match Ligature.ofChar? character, EmojiSequence.ofChar? character with
    | some found, _ => .ligature found
    | none, some found => .emoji found
    | none, none => .nothing

/-- A character that is no unit of its own with what follows: how much wider
the text becomes by it, and what follows the character before it. -/
def add? (following : Following) (character : Char) : Option (Int × Following) :=
  match following with
  | .nothing => none
  | .lineFeed => if character = '\r' then some (0, .nothing) else none
  | .ligature read =>
    (read.add? character).map fun (columns, rest) => (columns, rest.elim .nothing .ligature)
  | .emoji read => (read.add? character).map fun (columns, rest) => (columns, .emoji rest)

/-- What is left of what follows behind a request for a style. A request stands
inside of a ligature like other marks; and an emoji in the emoji style can be
joined to another one. -/
def behind (following : Following) (style : EmojiStyle) : Following :=
  match style, following with
  | _, .ligature read => .ligature read
  | .emoji, .emoji read => if read.awaitsEmoji then .emoji read else .nothing
  | _, _ => .nothing

/-- How much wider a text becomes by a character in front of it, and what
follows the character before that one. -/
def add (following : Following) (character : Char) : Int × Context :=
  match EmojiStyle.ofChar? character with
  | some style => (0, ⟨some style, following.behind style⟩)
  | none =>
    match following.add? character with
    | some (columns, rest) => (columns, ⟨none, rest⟩)
    | none => (charWidth character, ⟨none, ofChar character⟩)

end Following

namespace Context

/-- The context at the end of a text. -/
def atEnd : Context := ⟨none, .nothing⟩

/-- How much wider a text becomes by a character in front of it, and what
follows the character before that one. A request for a style that the character
does not have is only a mark. -/
def add (context : Context) (character : Char) : Int × Context :=
  match context.style with
  | none => context.following.add character
  | some .emoji =>
    if emojiVariationBase.contains character then
      match context.following with
      | .emoji _ => (0, ⟨none, .emoji .emoji⟩)
      | _ => (2, ⟨none, .emoji .emoji⟩)
    else (context.following.behind .text).add character
  | some .text =>
    if narrowsAsText character then (1, atEnd) else context.following.add character

end Context

/-- The number of columns that a text takes. -/
def width (text : Text) : Nat :=
  (text.foldr (fun character (columns, context) =>
    let (added, context) := context.add character
    (columns + added, context)) ((0 : Int), Context.atEnd)).1.toNat

end Stencil.Text
