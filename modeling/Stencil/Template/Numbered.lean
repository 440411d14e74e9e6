import Stencil.Template.Segment
import Stencil.Diagnostic.Error

/-! Numbered segments: the occurrences of a source get their positions and
their codes in the order in which they appear. There are only so many codes of
one base, so a source can have too many occurrences. -/

namespace Stencil
namespace Segment

/-- The segments of pieces that begin at a byte offset of the source, after
the given number of occurrences. Nothing is known to be raw yet. -/
def number (config : Config) (base : Nat) :
    (position offset : Nat) → List Piece → Except ParseError (List Segment)
  | _, _, [] => .ok []
  | position, offset, .literal text :: pieces =>
    (number config base (position + Text.size text) offset pieces).map (.literal text :: ·)
  | position, offset, .occurrence name :: pieces =>
    match Code.nth? base offset with
    | some code =>
      (number config base (position + Text.size (Piece.source config (.occurrence name)))
        (offset + 1) pieces).map (.occurrence ⟨name, position, code, .string⟩ :: ·)
    | none => .error (.tooManyMacros position Code.limit)

/-- The segments of a source. -/
def ofSource (config : Config) (source : Text) (base : Nat) : Except ParseError (List Segment) :=
  number config base 0 0 (Piece.scan config source)

/-- Segments cover the same text as the pieces that they were made of. -/
theorem source_of_number {config : Config} {base position offset : Nat} {pieces : List Piece}
    {segments : List Segment} (numbered : number config base position offset pieces = .ok segments) :
    segments.flatMap (Segment.source config) = pieces.flatMap (Piece.source config) := by
  induction pieces generalizing position offset segments with
  | nil =>
    simp only [number, Except.ok.injEq] at numbered
    simp [← numbered]
  | cons piece pieces ih =>
    cases piece with
    | literal text =>
      cases inner : number config base (position + Text.size text) offset pieces with
      | error error => simp [number, inner, Except.map] at numbered
      | ok rest =>
        simp only [number, inner, Except.map, Except.ok.injEq] at numbered
        simp [← numbered, ih inner, Segment.source, Piece.source]
    | occurrence name =>
      simp only [number] at numbered
      split at numbered
      · cases inner : number config base
            (position + Text.size (Piece.source config (.occurrence name))) (offset + 1) pieces with
        | error error => simp [inner, Except.map] at numbered
        | ok rest =>
          simp only [inner, Except.map, Except.ok.injEq] at numbered
          simp [← numbered, ih inner, Segment.source, Piece.source]
      · simp at numbered

/-- The segments of a source cover it without gap or overlap. -/
theorem source_of_ofSource {config : Config} {source : Text} {base : Nat} {segments : List Segment}
    (numbered : ofSource config source base = .ok segments) :
    segments.flatMap (Segment.source config) = source := by
  rw [source_of_number numbered, Piece.source_scan]

end Segment
end Stencil
