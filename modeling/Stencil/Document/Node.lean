import Stencil.Text.Basic

/-! Documents. A document is what a reader keeps of relaxed JSON text: the
shape of objects and arrays, the keys, and the integers, all as written. -/

namespace Stencil.Document

/-- A value of a document. -/
inductive Node where
  /-- An object, its members in order of appearance. Keys are kept as written,
  without the quotes of a quoted key and with escapes unresolved. -/
  | object (members : List (Text × Node))
  /-- An array, its items in order of appearance. -/
  | array (items : List Node)
  /-- A number without fraction and exponent, as written. -/
  | integer (digits : Text)
  /-- A string, another number, a boolean or null. -/
  | other
deriving Repr, BEq, Inhabited

/-- Objects and arrays are nested at most this deep. -/
def depthLimit : Nat := 128

/-- The characters of an unquoted key: ASCII letters, digits, underscore and
dollar sign, and every character outside of ASCII. -/
def isKeyCharacter (character : Char) : Bool :=
  character.isAlphanum || character = '_' || character = '$' || 0x80 ≤ character.toNat

/-- The characters that make an escape sequence with the backslash alone. -/
def isShortEscape (character : Char) : Bool :=
  character = '"' || character = '\\' || character = '/' || character = 'b' || character = 'f' ||
    character = 'n' || character = 'r' || character = 't'

end Stencil.Document
