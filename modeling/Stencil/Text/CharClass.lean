/-! Classes of characters that the grammars of this library share. -/

namespace Stencil.Text

/-- The characters that may stand between tokens. -/
def isBlank (character : Char) : Bool :=
  character = ' ' || character = '\t' || character = '\n' || character = '\r'

/-- The hexadecimal digits, in either case. -/
def isHexDigit (character : Char) : Bool :=
  character.isDigit || ('a' ≤ character && character ≤ 'f') || ('A' ≤ character && character ≤ 'F')

end Stencil.Text
