import Stencil.Template.Occurrence

/-! Segments: the pieces of a source with everything that compiling finds out
about the occurrences. -/

namespace Stencil

/-- How the value of an occurrence is to be written. -/
inductive Context where
  /-- As part of the contents of a string literal. -/
  | string
  /-- As a token of its own. -/
  | raw
deriving DecidableEq, Repr

/-- An occurrence of a macro in a source. -/
structure Occurrence where
  name : Text
  /-- The byte offset of the start tag. -/
  position : Nat
  /-- The number that stands in for the occurrence in the encoded document. -/
  code : Code
  context : Context
deriving DecidableEq, Repr

/-- A piece of a compiled template. -/
inductive Segment where
  | literal (text : Text)
  | occurrence (found : Occurrence)
deriving DecidableEq, Repr

namespace Segment

/-- The text that a segment covers in the source. -/
def source (config : Config) : Segment → Text
  | .literal text => text
  | .occurrence found => config.startTag ++ found.name ++ config.endTag

/-- The text that stands for a segment in the encoded document. -/
def encoded : Segment → Text
  | .literal text => text
  | .occurrence found => found.code.digits

/-- The occurrence of a segment. -/
def occurrence? : Segment → Option Occurrence
  | .literal _ => none
  | .occurrence found => some found

/-- Changes the occurrence of a segment, if it is one. -/
def mapOccurrence (change : Occurrence → Occurrence) : Segment → Segment
  | .literal text => .literal text
  | .occurrence found => .occurrence (change found)

/-- The source offset for an offset in the encoded document. A place in literal
text keeps its distance from the beginning of the text, a place in a code
becomes the beginning of its occurrence, and the end stays the end. `start` is
the source offset at which the segments begin. -/
def sourceOffset (config : Config) (start : Nat) : List Segment → Nat → Nat
  | [], _ => start
  | segment :: rest, offset =>
    if offset < Text.size segment.encoded then
      match segment with
      | .literal _ => start + offset
      | .occurrence _ => start
    else
      sourceOffset config (start + Text.size (segment.source config)) rest
        (offset - Text.size segment.encoded)

end Segment

/-- The occurrences among segments, in order. -/
def occurrencesOf (segments : List Segment) : List Occurrence :=
  segments.filterMap Segment.occurrence?

/-- The document in which every occurrence is replaced by its code. -/
def encodedOf (segments : List Segment) : Text := segments.flatMap Segment.encoded

end Stencil
