import Stencil.Template.Expansion
import Stencil.Template.Log
import Stencil.Diagnostic.Failure
import Stencil.Json.Reader

/-! Sources compiled and expanded in one go, and expanded templates read as
JSON. An expanded text has to be strict JSON to be read. -/

namespace Stencil

/-- Why there is no JSON value in the end: the text was not made, or it was
made and is not JSON. -/
inductive ReadingError where
  | failure (failure : Failure)
  | json (text : Text) (fault : Json.Fault)

namespace Template

/-- The JSON value that the expansion of a template denotes. -/
def read (template : Template) (values : Renderings) : Except ReadingError Json.Value :=
  match template.expandToText values with
  | .error error => .error (.failure (.expand error))
  | .ok text =>
    match Json.parse text with
    | .error fault => .error (.json text fault)
    | .ok value => .ok value

end Template

/-- Compiles and expands a source. -/
def expand (config : Config) (source : Text) (values : Renderings) (supply : Supply) :
    Except Failure Text :=
  match (Template.make config source supply).result with
  | .error error => .error (.parse error)
  | .ok template =>
    match template.expandToText values with
    | .error error => .error (.expand error)
    | .ok text => .ok text

/-- Compiles and expands a source, and reads the text as JSON. -/
def read (config : Config) (source : Text) (values : Renderings) (supply : Supply) :
    Except ReadingError Json.Value :=
  match (Template.make config source supply).result with
  | .error error => .error (.failure (.parse error))
  | .ok template => template.read values

end Stencil
