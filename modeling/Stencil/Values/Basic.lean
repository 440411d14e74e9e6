import Stencil.Values.Datum
import Stencil.Values.Renderings
import Stencil.Json.Reader

/-! Sources of values. Data are found in a list or a table of named data, by a
function or in the environment, and rendered from what they display; members
of JSON objects are rendered from their JSON text. Sources can be put one
behind the other. A source that reads the environment may set variables first,
and these stay set for all sources that come later. -/

namespace Stencil

/-- The variables of an environment, with the bytes of their values, in the
order in which they were set. -/
abbrev Environment := List (Text × ByteArray)

namespace Environment

/-- The text in UTF-8 form that some bytes are, if they are one. -/
def textOfBytes? (bytes : ByteArray) : Option Text := (String.fromUTF8? bytes).map String.toList

/-- The value of a variable, which is the one it was given last. An environment
keeps a variable as its name, an equals sign and its value, and whatever stands
before an equals sign there can be asked for; so a name that goes on behind an
equals sign takes in the beginning of the value. -/
def bytes? (environment : Environment) (name : Text) : Option ByteArray := do
  let value ← environment.reverse.lookup (name.takeWhile (· != '='))
  match name.dropWhile (· != '=') with
  | [] => return value
  | _ :: beginning =>
    let read := (String.ofList (beginning ++ ['='])).toUTF8
    let rest ← read.data.toList.isPrefixOf? value.data.toList
    return ⟨rest.toArray⟩

/-- The value of a variable as a text. There is none if the bytes are not a text. -/
def text? (environment : Environment) (name : Text) : Option Text :=
  (environment.bytes? name).bind textOfBytes?

end Environment

/-- A source of values. -/
inductive Values where
  /-- No name has a value. -/
  | none
  /-- Named data in a list. The first with a name counts. -/
  | list (items : List (Text × Datum))
  /-- Named data in a table that was filled in this order. The last with a name counts. -/
  | table (items : List (Text × Datum))
  | function (value : Text → Option Datum)
  /-- The variables of the environment, after these were set. -/
  | environment (settings : Environment)
  /-- The members of a JSON object; other JSON values have none. -/
  | json (value : Json.Value)
  /-- The values of a source, and of another for names without value in the first. -/
  | fallback (base second : Values)
  /-- A source that others use as well. -/
  | shared (inner : Values)

namespace Values

/-- The variables that a source sets before it is read, in this order. -/
def settings : Values → Environment
  | .environment settings => settings
  | .fallback base second => base.settings ++ second.settings
  | .shared inner => inner.settings
  | .none | .list _ | .table _ | .function _ | .json _ => []

/-- The renderings of a JSON value. A string literal can be continued by the
contents of another one, but other JSON text in it has to be escaped. -/
def renderingsOfMembers (members : List (Text × Json.Value)) : Renderings where
  inString name := (members.lookup name).map fun value =>
    match value with
    | .string text => Json.escape text
    | other => Json.escape other.text
  raw name := (members.lookup name).map Json.Value.text

/-- The renderings of the values of a source in an environment in which its variables are set. -/
def renderingsIn (environment : Environment) : Values → Renderings
  | .none => Renderings.ofDisplay fun _ => .none
  | .list items => Renderings.ofDisplay fun name => (items.lookup name).map Datum.display
  | .table items => Renderings.ofDisplay fun name => (items.reverse.lookup name).map Datum.display
  | .function value => Renderings.ofDisplay fun name => (value name).map Datum.display
  | .environment _ => Renderings.ofDisplay environment.text?
  | .json value => renderingsOfMembers value.members
  | .fallback base second =>
    let base := base.renderingsIn environment
    let second := second.renderingsIn environment
    { inString name := (base.inString name).or (second.inString name)
      raw name := (base.raw name).or (second.raw name) }
  | .shared inner => inner.renderingsIn environment

/-- The renderings of the values of a source where no variables are set but its own. -/
def renderings (values : Values) : Renderings := values.renderingsIn values.settings

/-- The renderings of sources that are used one after the other: the variables
that one sets are still set for the next. -/
def renderingsInTurn (environment : Environment) : List Values → List Renderings
  | [] => []
  | values :: later =>
    let environment := environment ++ values.settings
    values.renderingsIn environment :: renderingsInTurn environment later

/-- A source of named texts, of which the last with a name counts. -/
def ofTexts (items : List (Text × Text)) : Values :=
  .table (items.map fun (name, text) => (name, .text text))

end Values
end Stencil
