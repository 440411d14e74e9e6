import Stencil.Stored.Reader
import Stencil.Template.Log

/-! Templates made from their stored form. A template is stored without its
codes, so it is compiled again, with a base of its own. -/

namespace Stencil.Stored

/-- The text of the stored form of a template. -/
def textOfTemplate (template : Template) : Text := templateText template.source template.config

/-- Makes a template from the text of its stored form; the supply that is left
is told, too. What follows the form is only looked at when the template is made. -/
def makeTemplate (text : Text) (supply : Supply) : Except Json.Fault Template × Supply :=
  match readForm .template (Json.Cursor.start text) with
  | .error fault => (.error fault, supply)
  | .ok (draft, next) =>
    let made := Template.make draft.config draft.source supply
    match made.result with
    | .error error => (.error ⟨.refused error.message, none⟩, made.supply)
    | .ok template => ((Json.expectEnd next).map fun _ => template, made.supply)

end Stencil.Stored
