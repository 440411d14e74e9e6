import Stencil.Diagnostic.Error
import Stencil.Text.Width

/-! Errors shown in their source. The line of the error is repeated, and the
part that the error is about is underlined. A range that does not lie in the
source, or that begins or ends inside a character, cannot be shown: then there
is no answer, which is not the same as an empty one. How many columns a text
takes up is a parameter, because versions of Unicode differ in it. -/

namespace Stencil

namespace Text

/-- The characters that end a line. -/
def isLineBreak (character : Char) : Bool := character = '\n' || character = '\r'

/-- The part of a text after its last line break. -/
def lastLine (text : Text) : Text :=
  (text.reverse.takeWhile fun character => !isLineBreak character).reverse

/-- The part of a text before its first line break. -/
def firstLine (text : Text) : Text := text.takeWhile fun character => !isLineBreak character

end Text

namespace SourceRange

/-- The line in which a range starts, in two parts: before the start and from there on. -/
def lineParts? (source : Text) (range : SourceRange) : Option (Text × Text) :=
  (Text.cut? source range.start).map fun (front, back) => (Text.lastLine front, Text.firstLine back)

/-- The line in which a range starts. -/
def line? (source : Text) (range : SourceRange) : Option Text :=
  (range.lineParts? source).map fun (lead, rest) => lead ++ rest

/-- Lines that take more columns than this are not shown. -/
def widestLine : Nat := 60

/-- The line of a range, and below it carets under the part of the range that
lies in the line; there is always at least one. The answer is empty for a line
that is too wide. -/
def highlight? (source : Text) (range : SourceRange) (width : Text → Nat := Text.width) : Option Text := do
  let (lead, rest) ← range.lineParts? source
  let line := lead ++ rest
  if widestLine < width line then
    return []
  let (marked, _) ← Text.cut? rest (min (range.stop - range.start) (Text.size rest))
  let indent := [' ', ' ']
  return indent ++ line ++ ['\n'] ++ indent ++
    List.replicate (width lead) ' ' ++ List.replicate (max (width marked) 1) '^' ++ ['\n']

end SourceRange

namespace ParseError

/-- The line of the error; empty for an error that is nowhere in the source. -/
def line? (source : Text) (error : ParseError) : Option Text :=
  match error.range? with
  | some range => range.line? source
  | none => some []

/-- The error shown in its source; empty for an error that is nowhere in the source. -/
def highlight? (source : Text) (error : ParseError) (width : Text → Nat := Text.width) : Option Text :=
  match error.range? with
  | some range => range.highlight? source width
  | none => some []

end ParseError

namespace ExpandError

/-- The error shown in its source. -/
def highlight? (source : Text) (error : ExpandError) (width : Text → Nat := Text.width) : Option Text :=
  error.range.highlight? source width

end ExpandError
end Stencil
