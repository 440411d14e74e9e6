import Stencil.Template.Segment
import Stencil.Json.Escape

/-! The two renderings of a value: as part of the contents of a string literal,
and as a token of its own. A template asks for the one that fits the place, and
takes it as it is. -/

namespace Stencil

/-- Where the renderings of values come from. A name may have none. -/
structure Renderings where
  inString : Text → Option Text
  raw : Text → Option Text

namespace Renderings

/-- The rendering of a value that fits a context. -/
def get? (values : Renderings) : Context → Text → Option Text
  | .string => values.inString
  | .raw => values.raw

/-- The renderings of values that are displayed: escaped inside of string
literals, and unchanged elsewhere. -/
def ofDisplay (display : Text → Option Text) : Renderings where
  inString name := (display name).map Json.escape
  raw := display

end Renderings
end Stencil
