import Stencil.Config.Basic
import Stencil.Code.Basic

/-! Macro occurrences. A source is divided into literal text and occurrences
from left to right: an occurrence begins at the first place where the start
tag, a known name and the end tag stand, its name is the first in the order of
the names, and the search goes on after its end tag. Joining the pieces gives
the source back (`source_scan`). -/

namespace Stencil

/-- A piece of a source. -/
inductive Piece where
  | literal (text : Text)
  | occurrence (name : Text)
deriving DecidableEq, Repr

namespace Piece

/-- The text that a piece covers in the source. -/
def source (config : Config) : Piece → Text
  | .literal text => text
  | .occurrence name => config.startTag ++ name ++ config.endTag

/-- Puts a character of literal text in front of pieces. -/
def consLiteral (character : Char) : List Piece → List Piece
  | .literal text :: pieces => .literal (character :: text) :: pieces
  | pieces => .literal [character] :: pieces

/-- Divides a source into literal text and occurrences. -/
def scan (config : Config) : Text → List Piece
  | [] => []
  | character :: rest =>
    match _found : config.occurrence? (character :: rest) with
    | some (name, afterEnd) => .occurrence name :: scan config afterEnd
    | none => consLiteral character (scan config rest)
termination_by text => text.length
decreasing_by
  · exact Config.length_lt_of_occurrence?_eq_some _found
  · simp

theorem source_consLiteral (config : Config) (character : Char) (pieces : List Piece) :
    (consLiteral character pieces).flatMap (source config) =
      character :: pieces.flatMap (source config) := by
  unfold consLiteral
  split <;> simp [source]

/-- The pieces of a source cover it without gap or overlap. -/
theorem source_scan (config : Config) (text : Text) :
    (scan config text).flatMap (source config) = text := by
  fun_induction scan config text with
  | case1 => rfl
  | case2 character rest name afterEnd found ih =>
    obtain ⟨_, division⟩ := Config.eq_of_occurrence?_eq_some found
    rw [List.flatMap_cons, ih, division]
    simp [source]
  | case3 character rest none ih => rw [source_consLiteral, ih]

end Piece
end Stencil
