/-! Texts and the places in them. A text is the list of its characters, so
that functions on texts are recursions on lists; a place in a text is the
number of bytes in front of it in UTF-8 form, because that is what every
position in the answers counts. The statement to remember is
`cut?_eq_some_iff`: a text can be cut exactly at the ends of its initial
parts, never past the end or inside a character. -/

namespace Stencil

/-- A text, as the list of its characters. -/
abbrev Text := List Char

namespace Text

/-- The number of bytes of a text in UTF-8 form. -/
def size : Text → Nat
  | [] => 0
  | character :: rest => character.utf8Size + size rest

@[simp] theorem size_nil : size [] = 0 := rfl

@[simp] theorem size_cons (character : Char) (rest : Text) :
    size (character :: rest) = character.utf8Size + size rest := rfl

@[simp] theorem size_append (front back : Text) : size (front ++ back) = size front + size back := by
  induction front with
  | nil => simp
  | cons character rest ih => simp [ih, Nat.add_assoc]

/-- Every character has at least one byte, so only the empty text has none. -/
theorem size_eq_zero_iff {text : Text} : size text = 0 ↔ text = [] := by
  cases text with
  | nil => simp
  | cons character rest =>
    have positive := character.utf8Size_pos
    simp only [size_cons, reduceCtorEq, iff_false]
    omega

/-- The rest of a text after `opening`, if the text begins with it. -/
def after? : (opening text : Text) → Option Text
  | [], text => some text
  | _ :: _, [] => none
  | wanted :: opening, found :: text => if wanted = found then after? opening text else none

theorem after?_eq_some_iff {opening text rest : Text} :
    after? opening text = some rest ↔ text = opening ++ rest := by
  fun_induction after? opening text with
  | case1 => simp [eq_comm]
  | case2 => simp
  | case3 => simp_all
  | case4 => simp_all [eq_comm]

/-- Whether `part` stands somewhere in a text. -/
def occurs (part : Text) : Text → Bool
  | [] => part.isEmpty
  | found :: rest => part.isPrefixOf (found :: rest) || occurs part rest

theorem occurs_iff {part text : Text} : occurs part text = true ↔ part <:+: text := by
  induction text with
  | nil => simp [occurs]
  | cons found rest ih => simp [occurs, ih, List.infix_cons_iff]

/-- Cuts a text at a byte offset. There is no cut past the end of the text and
none inside a character. -/
def cut? : Text → Nat → Option (Text × Text)
  | text, 0 => some ([], text)
  | [], _ + 1 => none
  | character :: rest, offset + 1 =>
    if character.utf8Size ≤ offset + 1 then
      (cut? rest (offset + 1 - character.utf8Size)).map fun (front, back) => (character :: front, back)
    else none

@[simp] theorem cut?_zero (text : Text) : cut? text 0 = some ([], text) := by
  cases text <;> rfl

/-- The cuts of a text are its divisions in two, each at the size of its front. -/
theorem cut?_eq_some_iff {text front back : Text} {offset : Nat} :
    cut? text offset = some (front, back) ↔ text = front ++ back ∧ offset = size front := by
  fun_induction cut? text offset generalizing front with
  | case1 text =>
    constructor
    · intro cut
      simp only [Option.some.injEq, Prod.mk.injEq] at cut
      simp [← cut.1, ← cut.2]
    · rintro ⟨division, offset_eq⟩
      have empty := size_eq_zero_iff.mp offset_eq.symm
      simp [empty, division]
  | case2 offset =>
    simp only [reduceCtorEq, List.nil_eq, List.append_eq_nil_iff, false_iff, not_and]
    rintro ⟨rfl, _⟩
    simp
  | case3 character rest offset fits ih =>
    cases front with
    | nil => simp
    | cons first front =>
      simp only [Option.map_eq_some_iff, Prod.exists, Prod.mk.injEq, List.cons.injEq,
        List.cons_append, size_cons]
      constructor
      · rintro ⟨inner, last, cut, ⟨rfl, rfl⟩, rfl⟩
        have division := ih.mp cut
        exact ⟨⟨rfl, division.1⟩, by omega⟩
      · rintro ⟨⟨rfl, division⟩, offset_eq⟩
        exact ⟨front, back, ih.mpr ⟨division, by omega⟩, ⟨rfl, rfl⟩, rfl⟩
  | case4 character rest offset inside =>
    cases front with
    | nil => simp
    | cons first front =>
      simp only [reduceCtorEq, List.cons_append, List.cons.injEq, size_cons, false_iff, not_and]
      rintro ⟨rfl, _⟩
      omega

/-- Every division of a text is a cut. -/
theorem cut?_append (front back : Text) : cut? (front ++ back) (size front) = some (front, back) :=
  cut?_eq_some_iff.mpr ⟨rfl, rfl⟩

/-- Two divisions of a text at the same byte are the same. -/
theorem append_inj_of_size {front back front' back' : Text} (same : front ++ back = front' ++ back')
    (size_eq : size front = size front') : front = front' ∧ back = back' := by
  have cut := cut?_append front back
  rw [same, size_eq, cut?_append] at cut
  simpa [eq_comm] using cut

/-- The character at a byte offset, if the offset is the place of one. -/
def charAt? (text : Text) (offset : Nat) : Option Char :=
  (cut? text offset).bind fun (_, back) => back.head?

end Text
end Stencil
