import Stencil.Document.Node

/-! The tokens of a document that can be a number by themselves: keys and
integers. They are listed in the order in which they stand in the text. -/

namespace Stencil.Document

/-- A key or an integer, as written. -/
inductive Token where
  /-- A key without the quotes of a quoted one. -/
  | key (text : Text)
  | integer (text : Text)
deriving DecidableEq, Repr

/-- The text of a token. -/
def Token.text : Token → Text
  | .key text => text
  | .integer text => text

mutual

/-- The keys and integers of a document. -/
def Node.tokens : Node → List Token
  | .object members => tokensOfMembers members
  | .array items => tokensOfItems items
  | .integer digits => [.integer digits]
  | .other => []

/-- The keys and integers of the members of an object. -/
def tokensOfMembers : List (Text × Node) → List Token
  | [] => []
  | (key, value) :: members => .key key :: value.tokens ++ tokensOfMembers members

/-- The keys and integers of the items of an array. -/
def tokensOfItems : List Node → List Token
  | [] => []
  | item :: items => item.tokens ++ tokensOfItems items

end

end Stencil.Document
