import Stencil.Diagnostic.Highlight

/-! What can go wrong when a source is compiled and expanded in one go. -/

namespace Stencil

/-- Why a source has no expansion. -/
inductive Failure where
  | parse (error : ParseError)
  | expand (error : ExpandError)
deriving DecidableEq, Repr

namespace Failure

/-- The words for the failure. -/
def message : Failure → String
  | .parse error => error.message
  | .expand error => error.message

/-- The part of the source that the failure is about. -/
def range? : Failure → Option SourceRange
  | .parse error => error.range?
  | .expand error => some error.range

/-- The failure shown in its source; empty if it is nowhere in the source. -/
def highlight? (source : Text) (failure : Failure) (width : Text → Nat := Text.width) : Option Text :=
  match failure with
  | .parse error => error.highlight? source width
  | .expand error => error.highlight? source width

end Failure
end Stencil
