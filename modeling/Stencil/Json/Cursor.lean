import Stencil.Json.Fault
import Stencil.Text.CharClass

/-! Places in JSON text that is being read, and the reading of the tokens
without contents. -/

namespace Stencil.Json

/-- A place in a text: its byte offset, and the text from there on. -/
structure Cursor where
  offset : Nat
  rest : Text
deriving Repr, BEq

namespace Cursor

/-- The beginning of a text. -/
def start (text : Text) : Cursor := ⟨0, text⟩

/-- The place behind the given blanks or other characters of one byte. -/
def skipWhile (cursor : Cursor) (skipped : Char → Bool) : Cursor :=
  let run := cursor.rest.takeWhile skipped
  ⟨cursor.offset + Text.size run, cursor.rest.dropWhile skipped⟩

/-- The place of the next token. -/
def skipBlanks (cursor : Cursor) : Cursor := cursor.skipWhile Text.isBlank

theorem length_skipWhile_le (cursor : Cursor) (skipped : Char → Bool) :
    (cursor.skipWhile skipped).rest.length ≤ cursor.rest.length :=
  (List.dropWhile_sublist skipped).length_le

theorem length_skipBlanks_le (cursor : Cursor) : cursor.skipBlanks.rest.length ≤ cursor.rest.length :=
  cursor.length_skipWhile_le Text.isBlank

/-- A fault at this place. -/
def fault (cursor : Cursor) (problem : Problem) : Fault := ⟨problem, some cursor.offset⟩

/-- A fault that is counted behind the first byte at this place, if there is one. -/
def faultBehind (cursor : Cursor) (problem : Problem) : Fault :=
  ⟨problem, some (if cursor.rest = [] then cursor.offset else cursor.offset + 1)⟩

/-- Reads the letters of a word. -/
def readWord (cursor : Cursor) : (letters : Text) → Except Fault Cursor
  | [] => .ok cursor
  | letter :: letters =>
    match cursor.rest with
    | [] => .error (cursor.faultBehind .endInValue)
    | found :: rest =>
      if found = letter then readWord ⟨cursor.offset + found.utf8Size, rest⟩ letters
      else .error (cursor.faultBehind .wordExpected)

end Cursor
end Stencil.Json
