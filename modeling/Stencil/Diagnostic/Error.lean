import Stencil.Config.Basic
import Stencil.Document.SyntaxError
import Stencil.Text.Quoted

/-! What can go wrong when a template is compiled or expanded. An error says
where in the source it is, if it is anywhere, and what it is about in words. -/

namespace Stencil

/-- Why a source cannot be compiled. Positions are byte offsets in the source. -/
inductive ParseError where
  | emptyDelimiter (delimiter : Delimiter)
  | unexpectedCharacter (position : Nat) (character : Char) (expected : Document.Expectation)
  | unexpectedEnd (position : Nat) (expected : Document.Expectation)
  /-- There are more occurrences than codes; the position is that of the first one without a code. -/
  | tooManyMacros (position : Nat) (limit : Nat)
deriving DecidableEq, Repr

/-- Why a template cannot be expanded. -/
inductive ExpandError where
  /-- A macro has no value; the position is that of its name. -/
  | noSuchMacro (position : Nat) (name : Text)
deriving DecidableEq, Repr

/-- A part of a source, from one byte offset up to another. -/
structure SourceRange where
  start : Nat
  stop : Nat
deriving DecidableEq, Repr

namespace ParseError

/-- The words for the error. -/
def message : ParseError → String
  | .emptyDelimiter .start => "Empty macro start tag"
  | .emptyDelimiter .stop => "Empty macro end tag"
  | .unexpectedCharacter _ character expected =>
    "Unexpected character: " ++ String.ofList (Text.quoteChar character) ++
      ", expected " ++ expected.message
  | .unexpectedEnd _ expected => "Unexpected end of input, expected " ++ expected.message
  | .tooManyMacros _ limit =>
    "Too many macro occurrences, a template can contain at most " ++
      String.ofList (Decimal.digits limit)

/-- The part of the source that the error is about: one character, the empty
place at the end, or the first byte of an occurrence. An empty tag is not a
matter of the source. -/
def range? : ParseError → Option SourceRange
  | .emptyDelimiter _ => none
  | .unexpectedCharacter position character _ => some ⟨position, position + character.utf8Size⟩
  | .unexpectedEnd position _ => some ⟨position, position⟩
  | .tooManyMacros position _ => some ⟨position, position + 1⟩

end ParseError

namespace ExpandError

/-- The words for the error. -/
def message : ExpandError → String
  | .noSuchMacro _ name => "No value for macro: " ++ String.ofList name

/-- The part of the source that the error is about: the name of the macro. -/
def range : ExpandError → SourceRange
  | .noSuchMacro position name => ⟨position, position + Text.size name⟩

end ExpandError
end Stencil
