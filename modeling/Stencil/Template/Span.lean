import Stencil.Template.Expansion

/-! Segments as places in the source. A span of literal text or of a name is a
range of the source, so the source is sliced for whatever is made of spans: an
error of the encoded document is looked up in them, and the values of their
names take their place. -/

namespace Stencil

/-- A segment as places in the source. -/
inductive Span where
  | literal (range : SourceRange)
  | occurrence (name : SourceRange) (position : Nat) (code : Code) (context : Context)
deriving DecidableEq

/-! ### Looking up errors -/

/-- The number of bytes that stand for a span in the encoded document. -/
def Span.encodedSize : Span → Nat
  | .literal range => range.stop - range.start
  | .occurrence _ _ code _ => code.digitCount

/-- The place in the source for an offset in the encoded document that a span holds. -/
def Span.place (encodedStart offset : Nat) : Span → Nat
  | .literal range => range.start + (offset - encodedStart)
  | .occurrence _ position _ _ => position

/-- The place in the source for an offset in the encoded document, in which the
spans begin at `encodedStart`; none when the offset is behind all of them. -/
def Span.place? (encodedStart offset : Nat) : List Span → Option Nat
  | [] => none
  | span :: rest =>
    if offset < encodedStart + span.encodedSize then some (span.place encodedStart offset)
    else place? (encodedStart + span.encodedSize) offset rest

/-- An error in the encoded document as an error in the source, which is sliced at
the place of the error; none when the slice would break a character. -/
def Span.errorInSource? (source : Text) (spans : List Span) (error : Document.SyntaxError) : Option ParseError :=
  let position := (place? 0 error.position spans).getD (Text.size source)
  match Text.cut? source position with
  | none => none
  | some (_, rest) =>
    match error.found with
    | some found => some (.unexpectedCharacter position (rest.head?.getD found) error.expected)
    | none => some (.unexpectedEnd (Text.size source) error.expected)

/-! ### Expansion -/

/-- The text of a range of a source, unless the range is none or breaks a character. -/
def SourceRange.text? (source : Text) (range : SourceRange) : Option Text :=
  if range.start ≤ range.stop then do
    let (_, rest) ← Text.cut? source range.start
    let (text, _) ← Text.cut? rest (range.stop - range.start)
    return text
  else none

/-- The text that takes the place of a span; none when a slice would break a character. -/
def Span.expand? (source : Text) (values : Renderings) : Span → Option (Except ExpandError Text)
  | .literal range => (range.text? source).map .ok
  | .occurrence name _ _ context =>
    (name.text? source).map fun text =>
      match values.get? context text with
      | some rendering => .ok rendering
      | none => .error (.noSuchMacro name.start text)

/-- The text that takes the place of spans, one after the other up to the first error. -/
def Span.expandAll? (source : Text) (values : Renderings) : List Span → Option (Except ExpandError Text)
  | [] => some (.ok [])
  | span :: rest =>
    match span.expand? source values with
    | none => none
    | some (.error error) => some (.error error)
    | some (.ok text) => (expandAll? source values rest).map (Except.map (text ++ ·))

end Stencil
