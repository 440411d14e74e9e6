import Stencil.Text.Basic

/-! What can be wrong with a document: at some place the text is not what the
reader needs there. -/

namespace Stencil.Document

/-- What the reader needed at the place of an error. -/
inductive Expectation where
  | shallowerData
  | value
  | colon
  | commaOrBrace
  | commaOrBracket
  | key
  | closingQuote
  | closingQuoteOrEscape
  | escape
  | hexDigit
  | digit
  | endOfInput
deriving DecidableEq, Repr

/-- The words for what was needed. -/
def Expectation.message : Expectation → String
  | .shallowerData => "less deeply nested data"
  | .value => "a value"
  | .colon => "a colon (':')"
  | .commaOrBrace => "a comma (',') or closing brace ('\x7d')"
  | .commaOrBracket => "a comma (',') or closing bracket (']')"
  | .key => "an object key"
  | .closingQuote => "a closing quote ('\"')"
  | .closingQuoteOrEscape => "a closing quote ('\"') or escaped control character"
  | .escape => "an escape sequence"
  | .hexDigit => "a hexadecimal digit"
  | .digit => "a digit"
  | .endOfInput => "end of input"

/-- The place where a text stops being a document. `found` is the character at
`position`, and none at the end of the text. -/
structure SyntaxError where
  position : Nat
  found : Option Char
  expected : Expectation
deriving DecidableEq, Repr

end Stencil.Document
