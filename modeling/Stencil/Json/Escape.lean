import Stencil.Text.Basic

/-! Text as the contents of a JSON string literal. Quotes, backslashes and
control characters are escaped, everything else stands for itself, so an
escaped text holds no quote that would end the literal. -/

namespace Stencil.Json

/-- A character as part of the contents of a string literal: a short escape if
there is one, otherwise four hexadecimal digits for a control character. -/
def escapeChar (character : Char) : Text :=
  match character with
  | '"' => ['\\', '"']
  | '\\' => ['\\', '\\']
  | '\x08' => ['\\', 'b']
  | '\t' => ['\\', 't']
  | '\n' => ['\\', 'n']
  | '\x0c' => ['\\', 'f']
  | '\r' => ['\\', 'r']
  | _ =>
    if character.toNat < 0x20 then
      ['\\', 'u', '0', '0', Nat.digitChar (character.toNat / 16), Nat.digitChar (character.toNat % 16)]
    else [character]

/-- A text as the contents of a string literal. -/
def escape (text : Text) : Text := text.flatMap escapeChar

@[simp] theorem escape_nil : escape [] = [] := rfl

@[simp] theorem escape_cons (character : Char) (rest : Text) :
    escape (character :: rest) = escapeChar character ++ escape rest := rfl

@[simp] theorem escape_append (front back : Text) : escape (front ++ back) = escape front ++ escape back := by
  simp [escape]

/-- A text as a string literal. -/
def literal (text : Text) : Text := '"' :: escape text ++ ['"']

end Stencil.Json
