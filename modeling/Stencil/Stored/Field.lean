import Stencil.Config.Basic
import Stencil.Json.Value

/-! The stored forms of configurations and templates. A form is a record of
texts; a template is stored as its source together with its configuration. -/

namespace Stencil.Stored

/-- What is stored. -/
inductive Form where
  | config
  | template
deriving DecidableEq, Repr

/-- A field of a stored form. -/
inductive Field where
  | source
  | macros
  | startTag
  | endTag
deriving DecidableEq, Repr

/-- The name of a field in the text of a stored form. -/
def Field.name : Field → Text
  | .source => ['s', 'o', 'u', 'r', 'c', 'e']
  | .macros => ['m', 'a', 'c', 'r', 'o', 's']
  | .startTag => ['s', 't', 'a', 'r', 't', '_', 't', 'a', 'g']
  | .endTag => ['e', 'n', 'd', '_', 't', 'a', 'g']

/-- Tags may be left out. -/
def Field.isRequired : Field → Bool
  | .source | .macros => true
  | .startTag | .endTag => false

namespace Form

/-- The fields of a form in their order. -/
def fields : Form → List Field
  | .config => [.macros, .startTag, .endTag]
  | .template => [.source, .macros, .startTag, .endTag]

/-- The field with the given name. -/
def field? (form : Form) (name : Text) : Option Field :=
  form.fields.find? fun field => field.name = name

/-- What a form is called when it is wanted and something else is found. -/
def title : Form → String
  | .config => "struct Config"
  | .template => "struct TemplateDef"

/-- What a form is called when it is wanted as an array of its fields. -/
def titleOfArray (form : Form) : String :=
  form.title ++ " with " ++ String.ofList (Decimal.digits form.fields.length) ++ " elements"

end Form

/-- What was read of a stored form: which fields were given, and the source and
the configuration with defaults for the other fields. -/
structure Draft where
  given : List Field := []
  source : Text := []
  config : Config := {}

/-- The first required field of a form that was not given. -/
def Draft.missing? (draft : Draft) (form : Form) : Option Field :=
  form.fields.find? fun field => field.isRequired && !draft.given.contains field

/-- The members of the stored form of a configuration. -/
def configMembers (config : Config) : List (Text × Json.Value) :=
  [(Field.name .macros, .array (config.names.toList.map .string)),
    (Field.name .startTag, .string config.startTag),
    (Field.name .endTag, .string config.endTag)]

/-- The text of the stored form of a configuration. -/
def configText (config : Config) : Text := (Json.Value.object (configMembers config)).text

/-- The text of the stored form of a template. -/
def templateText (source : Text) (config : Config) : Text :=
  (Json.Value.object ((Field.name .source, .string source) :: configMembers config)).text

end Stencil.Stored
