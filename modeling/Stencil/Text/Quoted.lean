import Stencil.Decimal.Basic
import Stencil.Text.GraphemeExtend
import Stencil.Text.Unprintable

/-! Texts in quotes, for people to read. The usual backslash escapes are used,
and whatever could not be told apart on a screen is written as its code point. -/

namespace Stencil.Text

/-- The code point of a character in braces, in hexadecimal digits without leading zeros. -/
def codePointEscape (character : Char) : Text :=
  ['\\', 'u', '\x7b'] ++ Nat.toDigits 16 character.toNat ++ ['\x7d']

/-- Whether a character can be shown only on the one before it. The two sound
marks of halfwidth Katakana extend a letter, but have a place of their own. -/
def isAttached (character : Char) : Bool :=
  isGraphemeExtend character && character != '\uFF9E' && character != '\uFF9F'

/-- A character as it is written between quotes of the given kind. -/
def showChar (quote character : Char) : Text :=
  if character = '\x00' then ['\\', '0']
  else if character = '\t' then ['\\', 't']
  else if character = '\n' then ['\\', 'n']
  else if character = '\r' then ['\\', 'r']
  else if character = '\\' || character = quote then ['\\', character]
  else if isAttached character || isUnprintable character then codePointEscape character
  else [character]

/-- A character in single quotes. -/
def quoteChar (character : Char) : Text := '\'' :: showChar '\'' character ++ ['\'']

/-- A text in double quotes. -/
def quote (text : Text) : Text := '"' :: text.flatMap (showChar '"') ++ ['"']

end Stencil.Text
