import Stencil.Code.Supply
import Stencil.Proofs.Code.Digits
import Stencil.Proofs.Template.Marks

/-! Codes are found in an encoded document only where occurrences stand. The
base of the codes does not occur in the source, so the digits of a code, when
no other digit stands next to them, cannot be made of literal text, of parts of
several codes, or of both. -/
namespace Stencil

/-- All codes among the marks are codes of this base. -/
def CodesOf (base : Nat) (marks : List Mark) : Prop :=
  ∀ found, .occurrence found ∈ marks → found.code.base = base ∧ found.code.offset < Code.limit

/-- The literal text among the marks does not hold the digits of this base. -/
def Untouched (base : Nat) (marks : List Mark) : Prop :=
  ¬ (Decimal.digits base).map Mark.character <:+: marks

/-- A text does not go on from or into another one with a digit. -/
def EndsBefore (text : Text) : Prop := ∀ next ∈ text.head?, next.isDigit = false

def StartsAfter (text : Text) : Prop := ∀ last ∈ text.getLast?, last.isDigit = false

theorem Numbered.codesOf {config : Config} {base : Nat} {marks : List Mark}
    (numbered : Numbered config base marks) : CodesOf base marks := by
  intro found member
  obtain ⟨front, back, split⟩ := List.append_of_mem member
  obtain ⟨_, code, below⟩ := numbered front found back split
  exact ⟨by rw [code], below⟩

theorem CodesOf.mono {base : Nat} {part marks : List Mark} (codes : CodesOf base marks)
    (infix_marks : part <:+: marks) : CodesOf base part :=
  fun found member => codes found (infix_marks.subset member)

theorem Untouched.mono {base : Nat} {part marks : List Mark} (untouched : Untouched base marks)
    (infix_marks : part <:+: marks) : Untouched base part :=
  fun touched => untouched (touched.trans infix_marks)

/-- A base that fits the source is not found in its literal text. -/
theorem untouched_of_fits {config : Config} {source : Text} {base : Nat} {marks : List Mark}
    (fits : Supply.fits source base = true)
    (source_eq : filledOf (Occurrence.source config) marks = source) : Untouched base marks := by
  rintro ⟨front, back, split⟩
  have occurs : Text.occurs (Decimal.digits base) source = true := by
    rw [Text.occurs_iff]
    refine ⟨filledOf (Occurrence.source config) front, filledOf (Occurrence.source config) back, ?_⟩
    rw [← source_eq, ← split, filledOf_append, filledOf_append, filledOf_characters]
  simp [Supply.fits, occurs] at fits

theorem pos_of_fits {source : Text} {base : Nat} (fits : Supply.fits source base = true) : 0 < base := by
  simp only [Supply.fits, Bool.and_eq_true, bne_iff_ne] at fits
  exact Nat.pos_of_ne_zero fits.1

theorem filledOf_eq_nil {marks : List Mark} (empty : filledOf Occurrence.encoded marks = []) : marks = [] := by
  cases marks with
  | nil => rfl
  | cons mark rest =>
    cases mark with
    | character char => simp [Mark.filled] at empty
    | occurrence found => simp [Mark.filled, Occurrence.encoded, Code.digits_ne_nil] at empty

/-- A character that is no digit at the beginning of an encoded text is literal. -/
theorem first_character {marks : List Mark} {character : Char} {text : Text}
    (text_eq : filledOf Occurrence.encoded marks = character :: text) (noDigit : character.isDigit = false) :
    ∃ rest, marks = .character character :: rest ∧ filledOf Occurrence.encoded rest = text := by
  cases marks with
  | nil => cases text_eq
  | cons first rest =>
    cases first with
    | character char =>
      obtain ⟨rfl, rest_eq⟩ := List.cons.inj text_eq
      exact ⟨rest, rfl, rest_eq⟩
    | occurrence found =>
      have first_eq := congrArg List.head? text_eq
      rw [filledOf_cons, Mark.filled, Occurrence.encoded, List.head?_append_of_ne_nil _ (Code.digits_ne_nil _)]
        at first_eq
      have isDigit := Code.isDigit_of_mem_digits (List.mem_of_head? first_eq)
      rw [noDigit] at isDigit
      cases isDigit

/-- A character that is no digit at the end of an encoded text is literal. -/
theorem last_character {marks : List Mark} {character : Char} {text : Text}
    (text_eq : filledOf Occurrence.encoded marks = text ++ [character]) (noDigit : character.isDigit = false) :
    ∃ front, marks = front ++ [.character character] ∧ filledOf Occurrence.encoded front = text := by
  rcases List.eq_nil_or_concat marks with rfl | ⟨front, last, rfl⟩
  · simp at text_eq
  rw [List.concat_eq_append, filledOf_append] at text_eq
  cases last with
  | character char =>
    obtain ⟨front_eq, same⟩ := List.append_inj' text_eq rfl
    simp only [filledOf_cons, filledOf_nil, Mark.filled, List.append_nil, List.cons.injEq, and_true] at same
    exact ⟨front, by simp [same], front_eq⟩
  | occurrence found =>
    have last_eq := congrArg List.getLast? text_eq
    simp only [filledOf_cons, filledOf_nil, Mark.filled, Occurrence.encoded, List.append_nil,
      List.getLast?_concat] at last_eq
    rw [List.getLast?_append_of_ne_nil _ (Code.digits_ne_nil _)] at last_eq
    have isDigit := Code.isDigit_of_mem_digits (List.mem_of_getLast? last_eq)
    rw [noDigit] at isDigit
    cases isDigit

private theorem leading_characters (marks : List Mark) :
    ∃ (text : Text) (rest : List Mark), marks = text.map .character ++ rest ∧
      (rest = [] ∨ ∃ found later, rest = .occurrence found :: later) := by
  induction marks with
  | nil => exact ⟨[], [], rfl, .inl rfl⟩
  | cons mark marks ih =>
    cases mark with
    | character char =>
      obtain ⟨text, rest, rfl, stop⟩ := ih
      exact ⟨char :: text, rest, rfl, stop⟩
    | occurrence found => exact ⟨[], _, rfl, .inr ⟨found, marks, rfl⟩⟩

private theorem digits_not_in_characters {base : Nat} {code : Code} {char : Char} {rest : List Mark}
    {back : Text} (codes : CodesOf base (.character char :: rest))
    (untouched : Untouched base (.character char :: rest)) (code_base : code.base = base)
    (offset_lt : code.offset < Code.limit)
    (text_eq : filledOf Occurrence.encoded (.character char :: rest) = code.digits ++ back) :
    ¬ EndsBefore back := by
  intro ends
  obtain ⟨text, later, marks_eq, stop⟩ := leading_characters (.character char :: rest)
  have nonempty : text ≠ [] := by
    rintro rfl
    rcases stop with rfl | ⟨found, later, rfl⟩ <;> simp at marks_eq
  have holds : ∀ tail, text ≠ code.digits ++ tail := by
    rintro tail rfl
    apply untouched
    rw [marks_eq, ← code_base, Code.digits]
    exact ⟨[], (Decimal.padded Code.offsetWidth code.offset ++ tail).map .character ++ later, by simp⟩
  rw [marks_eq, filledOf_append, filledOf_characters] at text_eq
  rcases List.append_eq_append_iff.mp text_eq with ⟨more, digits_eq, later_eq⟩ | ⟨tail, text_eq', _⟩
  · have more_nonempty : more ≠ [] := by
      rintro rfl
      exact holds [] (by simpa using digits_eq.symm)
    rcases stop with rfl | ⟨found, last, rfl⟩
    · simp [more_nonempty] at later_eq
    · have same_base := codes found (by rw [marks_eq]; simp)
      have lengths : found.code.digits.length = code.digits.length := by
        rw [Code.length_digits same_base.2, Code.length_digits offset_lt, Code.digitCount,
          Code.digitCount, same_base.1, code_base]
      have digits_length := congrArg List.length digits_eq
      have text_pos := List.length_pos_iff.mpr nonempty
      rw [List.length_append] at digits_length
      rw [filledOf_cons] at later_eq
      rcases List.append_eq_append_iff.mp later_eq with ⟨beyond, more_eq, _⟩ | ⟨cut, found_eq, back_eq⟩
      · have more_length := congrArg List.length more_eq
        simp only [Mark.filled, Occurrence.encoded, List.length_append] at more_length
        omega
      · have found_length := congrArg List.length found_eq
        simp only [Mark.filled, Occurrence.encoded, List.length_append] at found_length
        cases cut with
        | nil => simp only [List.length_nil] at found_length; omega
        | cons digit cut =>
          have member : digit ∈ found.code.digits := by
            rw [show found.code.digits = more ++ digit :: cut from found_eq]
            simp
          have isDigit := Code.isDigit_of_mem_digits member
          have notDigit := ends digit (by simp [back_eq])
          rw [isDigit] at notDigit
          exact Bool.noConfusion notDigit
  · exact holds tail text_eq'

private theorem code_place_first {base : Nat} {code : Code} {marks : List Mark} {back : Text}
    (codes : CodesOf base marks) (untouched : Untouched base marks) (code_base : code.base = base)
    (offset_lt : code.offset < Code.limit)
    (text_eq : filledOf Occurrence.encoded marks = code.digits ++ back) (ends : EndsBefore back) :
    ∃ found after, marks = .occurrence found :: after ∧ found.code = code ∧
      filledOf Occurrence.encoded after = back := by
  cases marks with
  | nil => simp [Code.digits_ne_nil] at text_eq
  | cons mark rest =>
    cases mark with
    | character char =>
      exact absurd ends (digits_not_in_characters codes untouched code_base offset_lt text_eq)
    | occurrence found =>
      obtain ⟨same_base, found_lt⟩ := codes found (by simp)
      have lengths : found.code.digits.length = code.digits.length := by
        rw [Code.length_digits found_lt, Code.length_digits offset_lt, Code.digitCount,
          Code.digitCount, same_base, code_base]
      obtain ⟨digits_eq, back_eq⟩ := List.append_inj text_eq lengths
      exact ⟨found, rest, rfl, Code.digits_injective digits_eq (same_base.trans code_base.symm), back_eq⟩

/-- **Digits of a code that stand alone are the code of an occurrence.** No
other run of digits in an encoded document reads as one of its codes: one that
begins in literal text would hold the base there, or end inside of a code. -/
theorem code_place {base : Nat} {code : Code} {marks : List Mark} {front back : Text}
    (codes : CodesOf base marks) (untouched : Untouched base marks) (code_base : code.base = base)
    (offset_lt : code.offset < Code.limit)
    (text_eq : filledOf Occurrence.encoded marks = front ++ code.digits ++ back)
    (starts : StartsAfter front) (ends : EndsBefore back) :
    ∃ before found after, marks = before ++ .occurrence found :: after ∧ found.code = code ∧
      filledOf Occurrence.encoded before = front ∧ filledOf Occurrence.encoded after = back := by
  induction marks generalizing front with
  | nil => simp [Code.digits_ne_nil] at text_eq
  | cons mark rest ih =>
    by_cases first : front = []
    · subst first
      obtain ⟨found, after, marks_eq, same, after_eq⟩ :=
        code_place_first codes untouched code_base offset_lt text_eq ends
      exact ⟨[], found, after, marks_eq, same, rfl, after_eq⟩
    have restInfix : rest <:+: mark :: rest := (List.suffix_cons mark rest).isInfix
    rw [filledOf_cons, List.append_assoc] at text_eq
    rcases List.append_eq_append_iff.mp text_eq with ⟨later, front_eq, rest_eq⟩ | ⟨cut, mark_eq, rest_eq⟩
    · have startsLater : StartsAfter later := by
        intro last member
        apply starts
        rw [front_eq, List.getLast?_append]
        simp [Option.mem_def.mp member]
      obtain ⟨before, found, after, rest_eq', same, before_eq, after_eq⟩ :=
        ih (codes.mono restInfix) (untouched.mono restInfix) (by rw [rest_eq, List.append_assoc]) startsLater
      exact ⟨mark :: before, found, after, by rw [rest_eq']; rfl, same,
        by rw [filledOf_cons, before_eq, front_eq], after_eq⟩
    · cases mark with
      | character char =>
        cases front with
        | nil => exact absurd rfl first
        | cons head front =>
          simp only [Mark.filled, List.cons_append, List.cons.injEq, List.nil_eq,
            List.append_eq_nil_iff] at mark_eq
          obtain ⟨rfl, rfl, rfl⟩ := mark_eq
          obtain ⟨found, after, rest_eq', same, after_eq⟩ := code_place_first (codes.mono restInfix)
            (untouched.mono restInfix) code_base offset_lt (by simpa using rest_eq.symm) ends
          exact ⟨[.character char], found, after, by rw [rest_eq']; rfl, same, rfl, after_eq⟩
      | occurrence found =>
        obtain ⟨last, last_eq⟩ := Option.ne_none_iff_exists'.mp (mt List.getLast?_eq_none_iff.mp first)
        have member : last ∈ found.code.digits := by
          rw [show found.code.digits = front ++ cut from mark_eq]
          exact List.mem_append_left _ (List.mem_of_getLast? last_eq)
        have isDigit := Code.isDigit_of_mem_digits member
        have notDigit := starts last last_eq
        rw [isDigit] at notDigit
        exact Bool.noConfusion notDigit

end Stencil
