import Stencil.Json.Escape
import Stencil.Json.Number
import Stencil.Text.Table

/-! JSON values and their compact text. The members of an object are a table:
a key has one member, the one given last. -/

namespace Stencil.Json

/-- A JSON value. -/
inductive Value where
  | null
  | boolean (value : Bool)
  | number (value : Number)
  | string (value : Text)
  | array (items : List Value)
  | object (members : List (Text × Value))
deriving Repr, BEq, Inhabited

namespace Value

mutual

/-- The compact text of a value: no space between the tokens. -/
def text : Value → Text
  | .null => ['n', 'u', 'l', 'l']
  | .boolean true => ['t', 'r', 'u', 'e']
  | .boolean false => ['f', 'a', 'l', 's', 'e']
  | .number value => value.text
  | .string value => literal value
  | .array [] => ['[', ']']
  | .array (first :: rest) => '[' :: first.text ++ textOfItems rest ++ [']']
  | .object [] => ['\x7b', '\x7d']
  | .object ((key, first) :: rest) =>
    '\x7b' :: literal key ++ ':' :: first.text ++ textOfMembers rest ++ ['\x7d']

/-- The text of the items after the first, each after a comma. -/
def textOfItems : List Value → Text
  | [] => []
  | item :: rest => ',' :: item.text ++ textOfItems rest

/-- The text of the members after the first, each after a comma. -/
def textOfMembers : List (Text × Value) → Text
  | [] => []
  | (key, value) :: rest => ',' :: literal key ++ ':' :: value.text ++ textOfMembers rest

end

/-- The members of an object; other values have none. -/
def members : Value → List (Text × Value)
  | .object members => members
  | _ => []

end Value
end Stencil.Json
