import Stencil.Text.Basic

/-! Texts as bytes. A byte offset in a text is a boundary if a character begins
there or the text ends there; it is told by the byte alone. -/

namespace Stencil.Text

/-- The bytes of a text in UTF-8 form. -/
def bytes (text : Text) : List UInt8 := text.flatMap String.utf8EncodeChar

@[simp] theorem bytes_nil : bytes [] = [] := rfl

@[simp] theorem bytes_cons (character : Char) (rest : Text) :
    bytes (character :: rest) = String.utf8EncodeChar character ++ bytes rest := rfl

@[simp] theorem bytes_append (front back : Text) : bytes (front ++ back) = bytes front ++ bytes back := by
  simp [bytes]

@[simp] theorem length_bytes (text : Text) : (bytes text).length = size text := by
  induction text with
  | nil => rfl
  | cons character rest ih => rw [bytes_cons, List.length_append, String.length_utf8EncodeChar, ih, size_cons]

/-- Whether a character begins at a place in the bytes of a text, or the text ends there. -/
def isBoundary (bytes : List UInt8) (place : Nat) : Bool :=
  match bytes[place]? with
  | some byte => byte.IsUTF8FirstByte
  | none => place = bytes.length

end Stencil.Text
