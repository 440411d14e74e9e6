import Stencil.Template.Segment
import Stencil.Document.Token

/-! Raw occurrences: those whose code is a whole token of the encoded document,
an integer or an unquoted key. The document does not tell whether a key was
quoted, but the source does: a quote in front of a code that is a whole key can
only be the one that opens the key. -/

namespace Stencil

/-- Whether a quote stands right in front of a place, or nothing at all. -/
def followsQuote (source : Text) (position : Nat) : Bool :=
  match Text.cut? source position with
  | some (front, _) =>
    match front.getLast? with
    | some previous => previous = '"'
    | none => true
  | none => true

/-- The occurrence that a token of the encoded document stands for. -/
def rawOccurrence? (source : Text) (occurrences : List Occurrence) (token : Document.Token) :
    Option Occurrence := do
  let code ← Code.ofDigits? token.text
  let found ← occurrences.find? fun occurrence => occurrence.code = code
  match token with
  | .integer _ => some found
  | .key _ => if followsQuote source found.position then none else some found

/-- The occurrences that are tokens of the encoded document, in its order. -/
def rawTokens (source : Text) (occurrences : List Occurrence) (root : Document.Node) :
    List Occurrence :=
  root.tokens.filterMap (rawOccurrence? source occurrences)

/-- Gives the occurrences with the codes of the given ones the raw context. -/
def markRaw (raw : List Occurrence) (segments : List Segment) : List Segment :=
  segments.map (Segment.mapOccurrence fun found =>
    if raw.any fun other => other.code = found.code then { found with context := .raw } else found)

end Stencil
