import Stencil.Proofs.Document.Reading

/-! Beginnings of lexemes. In the middle of a number or of quoted text the reader
remembers only what can follow, and this says what was read so far. -/
namespace Stencil.Document

/-- The beginnings of numbers that an exponent can follow. -/
inductive Mantissa : Text → Prop where
  | integer {text : Text} (number : IsInteger text) : Mantissa text
  | fraction {integer fraction : Text} (front : IsInteger integer) (back : IsFraction fraction) :
      Mantissa (integer ++ fraction)

/-- The beginnings of numbers, by the part that was read last. -/
inductive NumberRead : NumberPart → Text → Prop where
  | minus : NumberRead .minus ['-']
  | zero : NumberRead .zero ['0']
  | minusZero : NumberRead .zero ['-', '0']
  | integer {first : Char} {rest : Text} (digit : first.isDigit = true) (notZero : first ≠ '0')
      (digits : ∀ character ∈ rest, character.isDigit = true) : NumberRead .integer (first :: rest)
  | minusInteger {first : Char} {rest : Text} (digit : first.isDigit = true) (notZero : first ≠ '0')
      (digits : ∀ character ∈ rest, character.isDigit = true) : NumberRead .integer ('-' :: first :: rest)
  | point {integer : Text} (front : IsInteger integer) : NumberRead .point (integer ++ ['.'])
  | fraction {integer fraction : Text} (front : IsInteger integer) (back : IsFraction fraction) :
      NumberRead .fraction (integer ++ fraction)
  | exponentMark {mantissa : Text} {mark : Char} (front : Mantissa mantissa) (isMark : mark = 'e' ∨ mark = 'E') :
      NumberRead .exponentMark (mantissa ++ [mark])
  | exponentSign {mantissa : Text} {mark sign : Char} (front : Mantissa mantissa)
      (isMark : mark = 'e' ∨ mark = 'E') (isSign : sign = '+' ∨ sign = '-') :
      NumberRead .exponentSign (mantissa ++ [mark, sign])
  | exponent {mantissa exponent : Text} (front : Mantissa mantissa) (back : IsExponent exponent) :
      NumberRead .exponent (mantissa ++ exponent)

theorem digits_append_digit {digits : Text} {character : Char} (run : ∀ digit ∈ digits, digit.isDigit = true)
    (isDigit : character.isDigit = true) : ∀ digit ∈ digits ++ [character], digit.isDigit = true := by
  intro digit member
  rcases List.mem_append.mp member with inRun | isLast
  · exact run digit inRun
  · rw [List.mem_singleton.mp isLast]
    exact isDigit

theorem IsFraction.append_digit {fraction : Text} {character : Char} (proper : IsFraction fraction)
    (isDigit : character.isDigit = true) : IsFraction (fraction ++ [character]) := by
  obtain ⟨run⟩ := proper
  exact .digits ⟨by simp, digits_append_digit run.2 isDigit⟩

theorem IsExponent.append_digit {exponent : Text} {character : Char} (proper : IsExponent exponent)
    (isDigit : character.isDigit = true) : IsExponent (exponent ++ [character]) := by
  cases proper with
  | unsigned isMark run => exact .unsigned isMark ⟨by simp, digits_append_digit run.2 isDigit⟩
  | signed isMark isSign run => exact .signed isMark isSign ⟨by simp, digits_append_digit run.2 isDigit⟩

theorem NumberRead.isInteger {part : NumberPart} {text : Text} (read : NumberRead part text)
    (integer : IntegerPart part) : IsInteger text := by
  cases read with
  | zero => exact .unsigned .zero
  | minusZero => exact .signed .zero
  | integer digit notZero digits => exact .unsigned (.positive digit notZero digits)
  | minusInteger digit notZero digits => exact .signed (.positive digit notZero digits)
  | _ => rcases integer with same | same <;> cases same

private theorem NumberRead.step_integer {text : Text} {character : Char} {next : NumberPart}
    (number : IsInteger text)
    (taken : (if character = '.' then .ok (some .point)
      else if character = 'e' || character = 'E' then .ok (some .exponentMark)
      else .ok none : Except Stop (Option NumberPart)) = .ok (some next)) :
    NumberRead next (text ++ [character]) := by
  split at taken
  · rename_i isPoint
    cases taken
    subst isPoint
    exact .point number
  · split at taken
    · rename_i isMark
      cases taken
      exact .exponentMark (.integer number) (by simpa using isMark)
    · cases taken

/-- A character that goes on with a number makes a longer beginning of one. -/
theorem NumberRead.step {part next : NumberPart} {text : Text} {character : Char} (read : NumberRead part text)
    (taken : stepNumber part character = .ok (some next)) : NumberRead next (text ++ [character]) := by
  cases read with
  | minus =>
    simp only [stepNumber] at taken
    split at taken
    · rename_i isZero
      cases taken
      subst isZero
      exact .minusZero
    · rename_i notZero
      split at taken
      · cases taken
        exact .minusInteger ‹_› notZero (by simp)
      · cases taken
  | zero => exact NumberRead.step_integer (.unsigned .zero) taken
  | minusZero => exact NumberRead.step_integer (.signed .zero) taken
  | @integer first rest digit notZero digits =>
    simp only [stepNumber] at taken
    split at taken
    · cases taken
      exact .integer digit notZero (digits_append_digit digits ‹_›)
    · exact NumberRead.step_integer (.unsigned (.positive digit notZero digits)) taken
  | @minusInteger first rest digit notZero digits =>
    simp only [stepNumber] at taken
    split at taken
    · cases taken
      exact .minusInteger digit notZero (digits_append_digit digits ‹_›)
    · exact NumberRead.step_integer (.signed (.positive digit notZero digits)) taken
  | point front =>
    simp only [stepNumber] at taken
    split at taken
    · cases taken
      rw [List.append_assoc]
      exact .fraction front (.digits ⟨by simp, by simpa⟩)
    · cases taken
  | fraction front back =>
    simp only [stepNumber] at taken
    split at taken
    · cases taken
      rw [List.append_assoc]
      exact .fraction front (back.append_digit ‹_›)
    · split at taken
      · rename_i isMark
        cases taken
        exact .exponentMark (.fraction front back) (by simpa using isMark)
      · cases taken
  | exponentMark front isMark =>
    simp only [stepNumber] at taken
    split at taken
    · rename_i isSign
      cases taken
      rw [List.append_assoc]
      exact .exponentSign front isMark (by simpa using isSign)
    · split at taken
      · cases taken
        rw [List.append_assoc]
        exact .exponent front (.unsigned isMark ⟨by simp, by simpa⟩)
      · cases taken
  | exponentSign front isMark isSign =>
    simp only [stepNumber] at taken
    split at taken
    · cases taken
      rw [List.append_assoc]
      exact .exponent front (.signed isMark isSign ⟨by simp, by simpa⟩)
    · cases taken
  | exponent front back =>
    simp only [stepNumber] at taken
    split at taken
    · cases taken
      rw [List.append_assoc]
      exact .exponent front (back.append_digit ‹_›)
    · cases taken

/-- A number that can end where it was read to is a lexeme. -/
theorem NumberRead.lexeme {part : NumberPart} {read : Text} (begun : NumberRead part read.reverse)
    (ends : part.isComplete = true) :
    ∃ lexeme, Phrase (.value (part.node read)) [lexeme] ∧ lexeme.text = read.reverse := by
  have whole (integer : IntegerPart part) :
      ∃ lexeme, Phrase (.value (part.node read)) [lexeme] ∧ lexeme.text = read.reverse := by
    refine ⟨.integer read.reverse, ?_, rfl⟩
    have denotes : part.node read = .integer read.reverse := by
      rcases integer with rfl | rfl <;> rfl
    rw [denotes]
    exact .integer (begun.isInteger integer)
  cases part with
  | zero => exact whole (.inl rfl)
  | integer => exact whole (.inr rfl)
  | fraction =>
    refine ⟨.decimal read.reverse, .decimal ?_, rfl⟩
    generalize read.reverse = text at begun
    cases begun with
    | fraction front back => exact .fraction front back
  | exponent =>
    refine ⟨.decimal read.reverse, .decimal ?_, rfl⟩
    generalize read.reverse = text at begun
    cases begun with
    | exponent front back =>
      cases front with
      | integer number => exact .exponent number back
      | fraction integer fraction => exact .both integer fraction back
  | minus | point | exponentMark | exponentSign => cases ends

theorem isComplete_of_stepNumber {part : NumberPart} {character : Char}
    (ended : stepNumber part character = .ok none) : part.isComplete = true := by
  cases part with
  | zero | integer | fraction | exponent => rfl
  | minus =>
    simp only [stepNumber] at ended
    split at ended <;> [skip; split at ended] <;> cases ended
  | point | exponentSign =>
    simp only [stepNumber] at ended
    split at ended <;> cases ended
  | exponentMark =>
    simp only [stepNumber] at ended
    split at ended <;> [skip; split at ended] <;> cases ended

/-- What the rest of a literal's text completes, by where the reader is before it. -/
def Quoted.Completes : Quoted → Text → Prop
  | .plain, text => Contents text
  | .escape, text => Contents ('\\' :: text)
  | .hex more, text => ∀ digits : Text, digits.length + more = 3 →
    (∀ digit ∈ digits, Text.isHexDigit digit = true) → Contents ('\\' :: 'u' :: (digits ++ text))

private theorem completes_hex {more : Nat} {character : Char} {rest : Text}
    (isHex : Text.isHexDigit character = true)
    (later : Quoted.Completes (if more = 0 then .plain else .hex (more - 1)) rest) :
    Quoted.Completes (.hex more) (character :: rest) := by
  intro digits length allHex
  split at later
  · match digits, length, allHex with
    | [first, second, third], _, allHex =>
      exact .unicode (allHex first (by simp)) (allHex second (by simp)) (allHex third (by simp)) isHex later
    | [], length, _ | [_], length, _ | [_, _], length, _ | _ :: _ :: _ :: _ :: _, length, _ =>
      simp at length
      omega
  · have longer := later (digits ++ [character]) (by simp; omega) (by
      intro digit member
      rcases List.mem_append.mp member with earlier | isLast
      · exact allHex digit earlier
      · rw [List.mem_singleton.mp isLast]
        exact isHex)
    simpa using longer

/-- A text that the reader can close a literal after completes the literal. -/
theorem completes_of_readQuoted {quoted : Quoted} {text : Text} (inside : readQuoted quoted text = some .plain) :
    quoted.Completes text := by
  fun_induction readQuoted quoted text with
  | case1 quoted =>
    cases inside
    exact .nil
  | case3 quoted character rest refused => cases inside
  | case2 quoted character rest next taken ih =>
    have later := ih inside
    cases quoted with
    | plain =>
      simp only [stepQuoted] at taken
      split at taken
      · cases taken
      · split at taken
        · rename_i isBackslash
          cases taken
          subst isBackslash
          exact later
        · split at taken
          · cases taken
          · cases taken
            exact .plain ‹_› ‹_› ‹_› later
    | escape =>
      simp only [stepQuoted] at taken
      split at taken
      · cases taken
        exact .short ‹_› later
      · split at taken
        · rename_i isUnicode
          cases taken
          subst isUnicode
          exact later [] rfl (by simp)
        · cases taken
    | hex more =>
      simp only [stepQuoted] at taken
      split at taken
      · cases taken
        exact completes_hex ‹_› later
      · cases taken

/-- A quote closes a literal, and any other character that is taken goes on with it. -/
theorem stepQuoted_cases {quoted : Quoted} {read : Text} {character : Char} {outcome : Option Quoted}
    (inside : readQuoted .plain read = some quoted) (taken : stepQuoted quoted character = .ok outcome) :
    (outcome = none ∧ quoted = .plain ∧ character = '"') ∨
      ∃ next, outcome = some next ∧ readQuoted .plain (read ++ [character]) = some next := by
  cases outcome with
  | some next =>
    refine .inr ⟨next, rfl, ?_⟩
    simp [readQuoted_append, inside, readQuoted, taken]
  | none =>
    left
    cases quoted with
    | plain =>
      simp only [stepQuoted] at taken
      split at taken
      · exact ⟨rfl, rfl, ‹_›⟩
      · split at taken <;> [skip; split at taken] <;> cases taken
    | escape =>
      simp only [stepQuoted] at taken
      split at taken <;> [skip; split at taken] <;> cases taken
    | hex more =>
      simp only [stepQuoted] at taken
      split at taken <;> cases taken

end Stencil.Document
