import Stencil.Proofs.Document.Completeness
import Stencil.Proofs.Document.Soundness

/-! What the reader does with a whole number of several digits, wherever it
stands in a document. Only where the number begins decides whether it is taken:
then all of its digits are taken, whatever they are, and otherwise its first
digit is refused, whatever it is. -/
namespace Stencil.Document

/-- A run of digits that does not begin with zero and is longer than the digits of an escape sequence. -/
structure Numeral (text : Text) : Prop where
  digits : ∀ character ∈ text, character.isDigit = true
  first : text.head? ≠ some '0'
  long : 4 ≤ text.length

/-- The part of a number that more digits belong to; none when the number cannot go on with digits. -/
def NumberPart.withDigits : NumberPart → Option NumberPart
  | .minus | .integer => some .integer
  | .zero => none
  | .point | .fraction => some .fraction
  | .exponentMark | .exponentSign | .exponent => some .exponent

/-- The state after a whole number, or why the reader cannot take its first digit. -/
def State.numeral (state : State) (text : Text) : Except Stop State :=
  let stack := state.stack
  match state.mode with
  | .value => .ok ⟨stack, .number .integer text.reverse⟩
  | .firstItem => .ok ⟨.array [] :: stack, .number .integer text.reverse⟩
  | .firstKey => .ok ⟨stack, .bareKey [] text.reverse⟩
  | .key members => .ok ⟨stack, .bareKey members text.reverse⟩
  | .bareKey members read => .ok ⟨stack, .bareKey members (text.reverse ++ read)⟩
  | .quotedKey members read quoted =>
    if quoted = .escape then .error ⟨.escape, []⟩
    else .ok ⟨stack, .quotedKey members (text.reverse ++ read) .plain⟩
  | .string quoted => if quoted = .escape then .error ⟨.escape, []⟩ else .ok ⟨stack, .string .plain⟩
  | .colon _ _ => .error ⟨.colon, []⟩
  | .number part read =>
    match part.withDigits with
    | some next => .ok ⟨stack, .number next (text.reverse ++ read)⟩
    | none => .error ⟨followerOf stack, []⟩
  | .word read _ _ => .error ⟨.value, read⟩
  | .complete _ => .error ⟨followerOf stack, []⟩

/-- An escape sequence has at most four hexadecimal digits. -/
def Quoted.Usual : Quoted → Prop
  | .hex more => more < 4
  | .plain | .escape => True

/-- What is true of the reader at all times: escape sequences are short, and words have no digits. -/
def State.Usual (state : State) : Prop :=
  match state.mode with
  | .quotedKey _ _ quoted | .string quoted => quoted.Usual
  | .word _ next later => ∀ letter ∈ next :: later, letter.isDigit = false
  | _ => True

theorem Quoted.Usual.step {quoted next : Quoted} {character : Char} (usual : quoted.Usual)
    (taken : stepQuoted quoted character = .ok (some next)) : next.Usual := by
  cases quoted with
  | plain =>
    simp only [stepQuoted] at taken
    split at taken
    · cases taken
    split at taken
    · cases taken
      trivial
    split at taken
    · cases taken
    · cases taken
      trivial
  | escape =>
    simp only [stepQuoted] at taken
    split at taken
    · cases taken
      trivial
    split at taken
    · cases taken
      exact (by decide : 3 < 4)
    · cases taken
  | hex more =>
    simp only [stepQuoted] at taken
    split at taken
    · cases taken
      split
      · trivial
      · have small : more < 4 := usual
        exact (by omega : more - 1 < 4)
    · cases taken

theorem Quoted.Usual.readQuoted {quoted last : Quoted} {text : Text} (usual : quoted.Usual)
    (inside : readQuoted quoted text = some last) : last.Usual := by
  fun_induction Document.readQuoted quoted text with
  | case1 quoted =>
    cases inside
    exact usual
  | case2 quoted character rest next taken ih => exact ih (usual.step taken) inside
  | case3 quoted character rest refused => cases inside

theorem digit_not_in_words {read rest : Text} (known : read ++ rest ∈ words) :
    ∀ letter ∈ rest, letter.isDigit = false := by
  have letters : (words.all fun word => word.all fun letter => !letter.isDigit) = true := rfl
  intro letter member
  have inWord := List.all_eq_true.mp (List.all_eq_true.mp letters _ known) letter (List.mem_append_right read member)
  simpa using inWord

/-- Whatever was taken, the reader is in a usual state. -/
theorem Taken.usual {state : State} {text : Text} (taken : Taken state text) : state.Usual := by
  obtain ⟨lexemes, begun, reached, _⟩ := taken
  have plain : Quoted.plain.Usual := trivial
  cases reached with
  | quotedKey _ _ inside | string _ _ inside => exact plain.readQuoted inside
  | word _ _ known => exact digit_not_in_words known
  | value | firstItem | firstKey | key | bareKey | colon | number | complete => trivial

/-! ### Where a number is taken -/

namespace Numeral

variable {text : Text} {stack : List Frame} {members : List (Text × Node)} {read : Text}

/-- The first digit of a numeral. -/
theorem cons (numeral : Numeral text) :
    ∃ first rest, text = first :: rest ∧ first.isDigit = true ∧ first ≠ '0' ∧
      ∀ character ∈ rest, character.isDigit = true := by
  obtain ⟨digits, notZero, long⟩ := numeral
  cases text with
  | nil => simp at long
  | cons first rest =>
    refine ⟨first, rest, rfl, digits first (by simp), ?_, fun character member => digits character (by simp [member])⟩
    rintro rfl
    exact notZero rfl

theorem run (numeral : Numeral text) : Digits text := by
  obtain ⟨first, rest, rfl, _⟩ := numeral.cons
  exact ⟨by simp, numeral.digits⟩

/-- A numeral is an integer where a value is expected. -/
theorem reads_value (numeral : Numeral text) : Reads ⟨stack, .value⟩ text ⟨stack, .number .integer text.reverse⟩ := by
  obtain ⟨first, rest, rfl, digit, notZero, digits⟩ := numeral.cons
  have begins : step ⟨stack, .value⟩ first = .ok ⟨stack, .number .integer [first]⟩ := by
    simp [step, isBlank_digit digit, beginValue_digit stack digit, wholePart, notZero]
  have later := reads_number stack [first] (readNumber_digits (fun _ => stepNumber_integer) digits)
  exact .cons begins (by simpa using later)

theorem reads_firstItem (numeral : Numeral text) :
    Reads ⟨stack, .firstItem⟩ text ⟨.array [] :: stack, .number .integer text.reverse⟩ := by
  obtain ⟨first, rest, rfl, digit, _, _⟩ := numeral.cons
  apply Reads.congr_first _ numeral.reads_value
  have noClose : first ≠ ']' := isDigit_ne digit rfl
  rw [(AwaitsValue.firstItem stack).step (isBlank_digit digit) noClose]
  simp [step, isBlank_digit digit]

/-- Digits are key characters. -/
theorem isKeyCharacter (numeral : Numeral text) : ∀ character ∈ text, Document.isKeyCharacter character = true := by
  intro character member
  simp [Document.isKeyCharacter, Char.isAlphanum, numeral.digits character member]

/-- A numeral is a key without quotes where a key is expected. -/
theorem reads_key {start : State} (numeral : Numeral text) (awaits : AwaitsKey stack members start) :
    Reads start text ⟨stack, .bareKey members text.reverse⟩ := by
  obtain ⟨first, rest, rfl, digit, _, _⟩ := numeral.cons
  have isKey := numeral.isKeyCharacter
  have noClose : first ≠ '\x7d' := isDigit_ne digit rfl
  have noQuote : first ≠ '"' := isDigit_ne digit rfl
  have begins : step start first = .ok ⟨stack, .bareKey members [first]⟩ := by
    rw [awaits.step (isBlank_digit digit) noClose]
    simp [beginKey, isBlank_digit digit, noQuote, isKey first (by simp)]
  rw [List.reverse_cons]
  exact .cons begins (reads_bareKey [first] fun next member => isKey next (by simp [member]))

/-- A numeral inside of a literal completes the escape sequence that it may
begin in, and stands for itself after that. -/
theorem readQuoted (numeral : Numeral text) {quoted : Quoted} (usual : quoted.Usual) (whole : quoted ≠ .escape) :
    Document.readQuoted quoted text = some .plain := by
  have completes : ∀ (more : Nat) (text : Text), (∀ character ∈ text, character.isDigit = true) →
      more < text.length → Document.readQuoted (.hex more) text = some .plain := by
    intro more
    induction more with
    | zero =>
      intro text digits longer
      cases text with
      | nil => simp at longer
      | cons first rest =>
        have isHex : Text.isHexDigit first = true := by simp [Text.isHexDigit, digits first (by simp)]
        simp only [Document.readQuoted, stepQuoted, if_pos isHex]
        exact (contents_of_digits fun character member => digits character (by simp [member])).readQuoted
    | succ more ih =>
      intro text digits longer
      cases text with
      | nil => simp at longer
      | cons first rest =>
        have isHex : Text.isHexDigit first = true := by simp [Text.isHexDigit, digits first (by simp)]
        simp only [Document.readQuoted, stepQuoted, if_pos isHex]
        exact ih rest (fun character member => digits character (by simp [member])) (by simpa using longer)
  cases quoted with
  | plain => exact (contents_of_digits numeral.digits).readQuoted
  | escape => exact absurd rfl whole
  | hex more => exact completes more text numeral.digits (Nat.lt_of_lt_of_le usual numeral.long)

/-- A numeral goes on with every part of a number except a leading zero. -/
theorem readNumber (numeral : Numeral text) {part next : NumberPart} (goesOn : part.withDigits = some next) :
    Document.readNumber part text = some next := by
  cases part with
  | zero => cases goesOn
  | minus =>
    cases goesOn
    obtain ⟨first, rest, rfl, digit, notZero, digits⟩ := numeral.cons
    have begins : stepNumber .minus first = .ok (some .integer) := by simp [stepNumber, notZero, digit]
    rw [Document.readNumber, begins]
    exact readNumber_digits (fun _ => stepNumber_integer) digits
  | integer =>
    cases goesOn
    exact readNumber_digits (fun _ => stepNumber_integer) numeral.digits
  | point =>
    cases goesOn
    exact readNumber_run (fun _ digit => by simp [stepNumber, digit]) (fun _ => stepNumber_fraction) numeral.run
  | fraction =>
    cases goesOn
    exact readNumber_digits (fun _ => stepNumber_fraction) numeral.digits
  | exponentMark =>
    cases goesOn
    exact readNumber_run (fun _ => stepNumber_exponentMark) (fun _ => stepNumber_exponent) numeral.run
  | exponentSign =>
    cases goesOn
    exact readNumber_run (fun _ digit => by simp [stepNumber, digit]) (fun _ => stepNumber_exponent) numeral.run
  | exponent =>
    cases goesOn
    exact readNumber_digits (fun _ => stepNumber_exponent) numeral.digits

end Numeral

/-- A digit after a complete value is refused. -/
theorem afterValue_digit {stack : List Frame} {node : Node} {digit : Char} (isDigit : digit.isDigit = true) :
    afterValue stack node digit = .error ⟨followerOf stack, []⟩ := by
  have noComma : digit ≠ ',' := isDigit_ne isDigit rfl
  have noBrace : digit ≠ '\x7d' := isDigit_ne isDigit rfl
  have noBracket : digit ≠ ']' := isDigit_ne isDigit rfl
  match stack with
  | [] => simp [afterValue, isBlank_digit isDigit]
  | .object _ _ :: _ => simp [afterValue, isBlank_digit isDigit, noComma, noBrace]
  | .array _ :: _ => simp [afterValue, isBlank_digit isDigit, noComma, noBracket]

/-- A digit after the colon's place was reached is refused. -/
theorem afterKey_digit {stack : List Frame} {members : List (Text × Node)} {key : Text} {digit : Char}
    (isDigit : digit.isDigit = true) : afterKey stack members key digit = .error ⟨.colon, []⟩ := by
  have noColon : digit ≠ ':' := isDigit_ne isDigit rfl
  simp [afterKey, isBlank_digit isDigit, noColon]

/-- **A number that is taken is taken whole.** -/
theorem reads_of_numeral {state next : State} {text : Text} (numeral : Numeral text) (usual : state.Usual)
    (taken : state.numeral text = .ok next) : Reads state text next := by
  obtain ⟨stack, mode⟩ := state
  cases mode with
  | value =>
    cases taken
    exact numeral.reads_value
  | firstItem =>
    cases taken
    exact numeral.reads_firstItem
  | firstKey =>
    cases taken
    exact numeral.reads_key (.firstKey stack)
  | key members =>
    cases taken
    exact numeral.reads_key (.key stack members)
  | bareKey members read =>
    cases taken
    exact reads_bareKey read numeral.isKeyCharacter
  | quotedKey members read quoted =>
    simp only [State.numeral] at taken
    split at taken
    · cases taken
    · cases taken
      exact reads_quotedKey stack members read (numeral.readQuoted usual ‹_›)
  | string quoted =>
    simp only [State.numeral] at taken
    split at taken
    · cases taken
    · cases taken
      exact reads_string stack (numeral.readQuoted usual ‹_›)
  | number part read =>
    simp only [State.numeral] at taken
    split at taken
    · rename_i goesOn
      cases taken
      exact reads_number stack read (numeral.readNumber goesOn)
    · cases taken
  | colon | word | complete => cases taken

/-- **A number that is refused is refused at its first digit.** -/
theorem step_of_numeral {state : State} {first : Char} {rest : Text} {stop : Stop}
    (numeral : Numeral (first :: rest)) (usual : state.Usual)
    (refused : state.numeral (first :: rest) = .error stop) : step state first = .error stop := by
  have digit : first.isDigit = true := numeral.digits first (by simp)
  have escape : stepQuoted .escape first = .error ⟨.escape, []⟩ := by
    have noEscape : isShortEscape first = false := by
      simp [isShortEscape, isDigit_ne digit]
    have noUnicode : first ≠ 'u' := isDigit_ne digit rfl
    simp [stepQuoted, noEscape, noUnicode]
  obtain ⟨stack, mode⟩ := state
  cases mode with
  | quotedKey members read quoted | string quoted =>
    simp only [State.numeral] at refused
    split at refused
    · rename_i isEscape
      cases refused
      subst isEscape
      simp [step, escape, bind, Except.bind]
    · cases refused
  | colon members key =>
    cases refused
    exact afterKey_digit digit
  | number part read =>
    simp only [State.numeral] at refused
    split at refused
    · cases refused
    · rename_i ended
      cases refused
      have isZero : part = .zero := by cases part <;> first | rfl | cases ended
      subst isZero
      have ends : stepNumber .zero first = .ok none := by
        simp [stepNumber, isDigit_ne digit (rfl : Char.isDigit '.' = false),
          isDigit_ne digit (rfl : Char.isDigit 'e' = false), isDigit_ne digit (rfl : Char.isDigit 'E' = false)]
      simpa [step, ends, bind, Except.bind] using afterValue_digit digit
  | word read next later =>
    cases refused
    have other : first ≠ next := isDigit_ne digit (usual next (by simp))
    simp [step, other]
  | complete node =>
    cases refused
    exact afterValue_digit digit
  | value | firstItem | firstKey | key | bareKey => cases refused

end Stencil.Document
