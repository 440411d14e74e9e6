import Stencil.Json.Value
import Stencil.Text.Quoted

/-! What can be wrong with JSON text, and with a value in it that is not of the
wanted kind. A fault tells its place by line and column. -/

namespace Stencil.Json

/-- A value in the text that is not of the wanted kind. -/
inductive Found where
  | null
  | boolean (value : Bool)
  | number (value : Number)
  | string (value : Text)
  | array
  | object
deriving Repr, BEq

/-- The words for a value that is not of the wanted kind. -/
def Found.describe : Found → String
  | .null => "null"
  | .boolean true => "boolean `true`"
  | .boolean false => "boolean `false`"
  | .number (.integer value) => "integer `" ++ String.ofList (integerText value) ++ "`"
  | .number value => "floating point `" ++ String.ofList value.text ++ "`"
  | .string value => "string " ++ String.ofList (Text.quote value)
  | .array => "sequence"
  | .object => "map"

/-- What can be wrong. -/
inductive Problem where
  | endInValue
  | endInArray
  | endInObject
  | endInString
  | wordExpected
  | valueExpected
  | colonExpected
  | arrayCommaExpected
  | objectCommaExpected
  | keyNotString
  | trailingComma
  | trailingCharacters
  | badEscape
  | loneSurrogate
  | endOfSurrogatePair
  | controlCharacter
  | badNumber
  | numberOutOfRange
  | tooDeep
  | wrongType (found : Found) (wanted : String)
  | missingField (name : Text)
  | duplicateField (name : Text)
  | wrongLength (length : Nat) (wanted : String)
  /-- The value has the wanted kind and is refused by what it is meant for. -/
  | refused (reason : String)
deriving Repr, BEq

/-- The words for what is wrong. -/
def Problem.describe : Problem → String
  | .endInValue => "EOF while parsing a value"
  | .endInArray => "EOF while parsing a list"
  | .endInObject => "EOF while parsing an object"
  | .endInString => "EOF while parsing a string"
  | .wordExpected => "expected ident"
  | .valueExpected => "expected value"
  | .colonExpected => "expected `:`"
  | .arrayCommaExpected => "expected `,` or `]`"
  | .objectCommaExpected => "expected `,` or `\x7d`"
  | .keyNotString => "key must be a string"
  | .trailingComma => "trailing comma"
  | .trailingCharacters => "trailing characters"
  | .badEscape => "invalid escape"
  | .loneSurrogate => "lone leading surrogate in hex escape"
  | .endOfSurrogatePair => "unexpected end of hex escape"
  | .controlCharacter => "control character (\\u0000-\\u001F) found while parsing a string"
  | .badNumber => "invalid number"
  | .numberOutOfRange => "number out of range"
  | .tooDeep => "recursion limit exceeded"
  | .wrongType found wanted => "invalid type: " ++ found.describe ++ ", expected " ++ wanted
  | .missingField name => "missing field `" ++ String.ofList name ++ "`"
  | .duplicateField name => "duplicate field `" ++ String.ofList name ++ "`"
  | .wrongLength length wanted =>
    "invalid length " ++ String.ofList (Decimal.digits length) ++ ", expected " ++ wanted
  | .refused reason => reason

/-- Something wrong, at a byte offset of the text if it is at one place of it. -/
structure Fault where
  problem : Problem
  place : Option Nat
deriving Repr, BEq

/-- The line of a byte offset, counted from one, and the number of bytes
between the beginning of the line and the offset. -/
def lineAndColumn (text : Text) (offset : Nat) : Nat × Nat :=
  go 1 0 text offset
where
  go (line column : Nat) : Text → Nat → Nat × Nat
    | _, 0 => (line, column)
    | [], _ => (line, column)
    | character :: rest, offset =>
      if character = '\n' then go (line + 1) 0 rest (offset - 1)
      else if character.utf8Size ≤ offset then
        go line (column + character.utf8Size) rest (offset - character.utf8Size)
      else (line, column + offset)

/-- The words for a fault in a text. -/
def Fault.message (text : Text) (fault : Fault) : String :=
  match fault.place with
  | none => fault.problem.describe
  | some offset =>
    let (line, column) := lineAndColumn text offset
    fault.problem.describe ++ " at line " ++ String.ofList (Decimal.digits line) ++
      " column " ++ String.ofList (Decimal.digits column)

end Stencil.Json
