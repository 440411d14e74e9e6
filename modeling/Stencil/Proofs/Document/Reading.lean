import Mathlib.Data.List.Basic
import Stencil.Document.Reader
import Stencil.Proofs.Document.Grammar

/-! How the reader goes through the smallest pieces of a document: contents of
string literals, the parts of numbers, and blanks. What it does with them does
not depend on where in the text they stand. -/
namespace Stencil.Document

/-- The reader gets from one state to another by taking a text, wherever the text stands. -/
def Reads (start : State) (text : Text) (stop : State) : Prop :=
  ∀ position, run start position text = .ok stop

theorem Reads.nil (state : State) : Reads state [] state := fun _ => rfl

theorem Reads.cons {start middle stop : State} {character : Char} {rest : Text}
    (first : step start character = .ok middle) (later : Reads middle rest stop) :
    Reads start (character :: rest) stop := by
  intro position
  rw [run, first]
  exact later _

theorem Reads.append {start middle stop : State} {front back : Text}
    (first : Reads start front middle) (later : Reads middle back stop) :
    Reads start (front ++ back) stop := by
  intro position
  rw [run_append (first position)]
  exact later _

theorem Reads.one {start stop : State} {character : Char} (taken : step start character = .ok stop) :
    Reads start [character] stop := .cons taken (.nil stop)

/-! ### Inside of literals and numbers -/

/-- Where the reader is inside of a string literal after some text, if the
text neither ends the literal nor is refused. -/
def readQuoted : Quoted → Text → Option Quoted
  | quoted, [] => some quoted
  | quoted, character :: rest =>
    match stepQuoted quoted character with
    | .ok (some next) => readQuoted next rest
    | _ => none

theorem readQuoted_append (quoted : Quoted) (front back : Text) :
    readQuoted quoted (front ++ back) = (readQuoted quoted front).bind (readQuoted · back) := by
  fun_induction readQuoted quoted front with
  | case1 quoted => rfl
  | case2 quoted character rest next taken ih => simpa [readQuoted, taken] using ih
  | case3 quoted character rest refused => simp [readQuoted]

theorem reads_string {quoted last : Quoted} {text : Text} (stack : List Frame)
    (inside : readQuoted quoted text = some last) : Reads ⟨stack, .string quoted⟩ text ⟨stack, .string last⟩ := by
  fun_induction readQuoted quoted text with
  | case1 quoted =>
    cases inside
    exact .nil _
  | case2 quoted character rest next taken ih =>
    exact .cons (by rw [step]; simp [taken, bind, Except.bind]) (ih inside)
  | case3 quoted character rest refused => cases inside

theorem reads_quotedKey {quoted last : Quoted} {text : Text} (stack : List Frame)
    (members : List (Text × Node)) (read : Text) (inside : readQuoted quoted text = some last) :
    Reads ⟨stack, .quotedKey members read quoted⟩ text
      ⟨stack, .quotedKey members (text.reverse ++ read) last⟩ := by
  fun_induction readQuoted quoted text generalizing read with
  | case1 quoted =>
    cases inside
    exact .nil _
  | case2 quoted character rest next taken ih =>
    have later := ih (character :: read) inside
    rw [← List.singleton_append, ← List.append_assoc, ← List.reverse_cons] at later
    exact .cons (by rw [step]; simp [taken, bind, Except.bind]) later
  | case3 quoted character rest refused => cases inside

/-- Contents of a literal leave the reader where it was, between two characters of the literal. -/
theorem Contents.readQuoted {contents : Text} (proper : Contents contents) :
    readQuoted .plain contents = some .plain := by
  induction proper with
  | nil => rfl
  | plain noQuote noBackslash noControl _ ih =>
    simp [Document.readQuoted, stepQuoted, noQuote, noBackslash, noControl, ih]
  | short escape _ ih => simp [Document.readQuoted, stepQuoted, escape, ih]
  | unicode one two three four _ ih =>
    simp [Document.readQuoted, stepQuoted, isShortEscape, one, two, three, four, ih]

/-- The part of a number that was read last after some more text, if all of it belongs to the number. -/
def readNumber : NumberPart → Text → Option NumberPart
  | part, [] => some part
  | part, character :: rest =>
    match stepNumber part character with
    | .ok (some next) => readNumber next rest
    | _ => none

theorem reads_number {part last : NumberPart} {text : Text} (stack : List Frame) (read : Text)
    (inside : readNumber part text = some last) :
    Reads ⟨stack, .number part read⟩ text ⟨stack, .number last (text.reverse ++ read)⟩ := by
  fun_induction readNumber part text generalizing read with
  | case1 part =>
    cases inside
    exact .nil _
  | case2 part character rest next taken ih =>
    have later := ih (character :: read) inside
    rw [← List.singleton_append, ← List.append_assoc, ← List.reverse_cons] at later
    exact .cons (by rw [step]; simp [taken, bind, Except.bind]) later
  | case3 part character rest refused => cases inside

/-- Digits go on with the part of a number that digits belong to. -/
theorem readNumber_digits {part : NumberPart} {digits : Text}
    (keeps : ∀ character : Char, character.isDigit = true → stepNumber part character = .ok (some part))
    (run : ∀ character ∈ digits, character.isDigit = true) : readNumber part digits = some part := by
  induction digits with
  | nil => rfl
  | cons character rest ih =>
    rw [readNumber, keeps character (run character (by simp))]
    exact ih fun digit member => run digit (by simp [member])

theorem stepNumber_integer {character : Char} (digit : character.isDigit = true) :
    stepNumber .integer character = .ok (some .integer) := by simp [stepNumber, digit]

theorem stepNumber_fraction {character : Char} (digit : character.isDigit = true) :
    stepNumber .fraction character = .ok (some .fraction) := by simp [stepNumber, digit]

theorem stepNumber_exponent {character : Char} (digit : character.isDigit = true) :
    stepNumber .exponent character = .ok (some .exponent) := by simp [stepNumber, digit]

/-- The part of a number that a whole number without sign ends with, by its first digit. -/
def wholePart (first : Char) : NumberPart := if first = '0' then .zero else .integer

/-- A whole number is read as its first digit and the digits after it. -/
theorem Whole.readNumber {whole : Text} (number : Whole whole) :
    ∃ first rest, whole = first :: rest ∧ first.isDigit = true ∧
      Document.readNumber (wholePart first) rest = some (wholePart first) := by
  cases number with
  | zero => exact ⟨'0', [], rfl, rfl, rfl⟩
  | @positive first rest digit notZero digits =>
    refine ⟨first, rest, rfl, digit, ?_⟩
    rw [wholePart, if_neg notZero]
    exact readNumber_digits (fun _ => stepNumber_integer) digits

theorem beginValue_digit {first : Char} (stack : List Frame) (digit : first.isDigit = true) :
    beginValue stack first = .ok ⟨stack, .number (wholePart first) [first]⟩ := by
  by_cases zero : first = '0'
  · subst zero
    rfl
  · simp [beginValue, wholePart, zero, digit, isDigit_ne digit]

theorem stepNumber_minus {first : Char} (digit : first.isDigit = true) :
    stepNumber .minus first = .ok (some (wholePart first)) := by
  by_cases zero : first = '0'
  · simp [stepNumber, wholePart, zero]
  · simp [stepNumber, wholePart, zero, digit]

theorem isBlank_digit {first : Char} (digit : first.isDigit = true) : Text.isBlank first = false := by
  simp [Text.isBlank, isDigit_ne digit]

/-- A first part of a number that is not followed by anything else of it is an integer. -/
def IntegerPart (part : NumberPart) : Prop := part = .zero ∨ part = .integer

theorem wholePart_isInteger (first : Char) : IntegerPart (wholePart first) := by
  unfold wholePart IntegerPart
  split <;> simp

/-- Where a value is expected, an integer is read to its end. -/
theorem IsInteger.reads {text : Text} (number : IsInteger text) (stack : List Frame) :
    ∃ part, IntegerPart part ∧ Reads ⟨stack, .value⟩ text ⟨stack, .number part text.reverse⟩ := by
  cases number with
  | unsigned whole =>
    obtain ⟨first, rest, rfl, digit, inside⟩ := whole.readNumber
    have begins : step ⟨stack, .value⟩ first = .ok ⟨stack, .number (wholePart first) [first]⟩ := by
      simp [step, isBlank_digit digit, beginValue_digit stack digit]
    refine ⟨_, wholePart_isInteger first, .cons begins ?_⟩
    simpa using reads_number stack [first] inside
  | signed whole =>
    obtain ⟨first, rest, rfl, digit, inside⟩ := whole.readNumber
    have minus : step ⟨stack, .value⟩ '-' = .ok ⟨stack, .number .minus ['-']⟩ := rfl
    have begins : step ⟨stack, .number .minus ['-']⟩ first =
        .ok ⟨stack, .number (wholePart first) [first, '-']⟩ := by
      simp [step, stepNumber_minus digit, bind, Except.bind]
    refine ⟨_, wholePart_isInteger first, .cons minus (.cons begins ?_)⟩
    simpa using reads_number stack [first, '-'] inside

/-- A run of digits after a point, a mark or a sign. -/
theorem readNumber_run {part next : NumberPart} {digits : Text}
    (begins : ∀ character : Char, character.isDigit = true → stepNumber part character = .ok (some next))
    (keeps : ∀ character : Char, character.isDigit = true → stepNumber next character = .ok (some next))
    (run : Digits digits) : readNumber part digits = some next := by
  obtain ⟨nonempty, run⟩ := run
  cases digits with
  | nil => exact absurd rfl nonempty
  | cons first rest =>
    rw [readNumber, begins first (run first (by simp))]
    exact readNumber_digits keeps fun later member => run later (by simp [member])

theorem stepNumber_exponentMark {character : Char} (digit : character.isDigit = true) :
    stepNumber .exponentMark character = .ok (some .exponent) := by
  have noSign : ¬ (character = '+' ∨ character = '-') := by
    rintro (rfl | rfl) <;> exact Bool.noConfusion digit
  simp [stepNumber, digit, noSign]

theorem readNumber_fraction {part : NumberPart} {fraction : Text} (integer : IntegerPart part)
    (proper : IsFraction fraction) : readNumber part fraction = some .fraction := by
  obtain ⟨run⟩ := proper
  have point : stepNumber part '.' = .ok (some .point) := by
    rcases integer with rfl | rfl <;> rfl
  rw [readNumber, point]
  exact readNumber_run (fun _ digit => by simp [stepNumber, digit]) (fun _ => stepNumber_fraction) run

theorem readNumber_exponent {part : NumberPart} {exponent : Text}
    (mantissa : IntegerPart part ∨ part = .fraction) (proper : IsExponent exponent) :
    readNumber part exponent = some .exponent := by
  have marked {mark : Char} (isMark : mark = 'e' ∨ mark = 'E') :
      stepNumber part mark = .ok (some .exponentMark) := by
    rcases mantissa with (rfl | rfl) | rfl <;> rcases isMark with rfl | rfl <;> rfl
  cases proper with
  | unsigned isMark run =>
    rw [readNumber, marked isMark]
    exact readNumber_run (fun _ => stepNumber_exponentMark) (fun _ => stepNumber_exponent) run
  | @signed mark sign digits isMark isSign run =>
    have signed : stepNumber .exponentMark sign = .ok (some .exponentSign) := by
      rcases isSign with rfl | rfl <;> rfl
    rw [readNumber, marked isMark]
    simp only [readNumber, signed]
    exact readNumber_run (fun _ digit => by simp [stepNumber, digit]) (fun _ => stepNumber_exponent) run

/-- Where a value is expected, a number with fraction or exponent is read to its end. -/
theorem IsDecimal.reads {text : Text} (number : IsDecimal text) (stack : List Frame) :
    ∃ part, (part = .fraction ∨ part = .exponent) ∧
      Reads ⟨stack, .value⟩ text ⟨stack, .number part text.reverse⟩ := by
  cases number with
  | fraction front back =>
    obtain ⟨part, integer, reads⟩ := front.reads stack
    refine ⟨.fraction, .inl rfl, reads.append ?_⟩
    rw [List.reverse_append]
    exact reads_number stack _ (readNumber_fraction integer back)
  | exponent front back =>
    obtain ⟨part, integer, reads⟩ := front.reads stack
    refine ⟨.exponent, .inr rfl, reads.append ?_⟩
    rw [List.reverse_append]
    exact reads_number stack _ (readNumber_exponent (.inl integer) back)
  | both front middle back =>
    obtain ⟨part, integer, reads⟩ := front.reads stack
    have mantissa := reads.append (reads_number stack _ (readNumber_fraction integer middle))
    refine ⟨.exponent, .inr rfl, mantissa.append ?_⟩
    rw [List.reverse_append, List.reverse_append]
    exact reads_number stack _ (readNumber_exponent (.inr rfl) back)

/-! ### Values and what follows them -/

/-- The states in which a value in the given containers is complete. -/
inductive Holds (stack : List Frame) (node : Node) : State → Prop where
  | complete : Holds stack node ⟨stack, .complete node⟩
  /-- The end of a number only shows by what follows it. -/
  | number {part : NumberPart} {read : Text} (ends : part.isComplete = true)
      (denotes : part.node read = node) : Holds stack node ⟨stack, .number part read⟩

/-- Any character that no number goes on with. -/
theorem Holds.step {stack : List Frame} {node : Node} {state : State} {character : Char}
    (holds : Holds stack node state) (noDigit : character.isDigit = false)
    (noMark : character ≠ '.' ∧ character ≠ 'e' ∧ character ≠ 'E') :
    step state character = afterValue stack node character := by
  cases holds with
  | complete => rfl
  | @number part read ends denotes =>
    have ended : stepNumber part character = .ok none := by
      cases part <;> simp_all [stepNumber, NumberPart.isComplete]
    simp [Document.step, ended, bind, Except.bind, denotes]

theorem Holds.blank {stack : List Frame} {node : Node} {state : State} {character : Char}
    (holds : Holds stack node state) (blank : Text.isBlank character = true) :
    Document.step state character = .ok ⟨stack, .complete node⟩ := by
  have one : ((character = ' ' ∨ character = '\t') ∨ character = '\n') ∨ character = '\r' := by
    simpa [Text.isBlank] using blank
  rcases one with ((rfl | rfl) | rfl) | rfl <;>
    exact (holds.step rfl ⟨by decide, by decide, by decide⟩).trans (by simp [afterValue, blank])

/-- Blanks after a value leave it complete. -/
theorem Holds.reads_blanks {stack : List Frame} {node : Node} {blanks : List Lexeme} {start : State}
    (holds : Holds stack node start) (only : Blanks blanks) :
    ∃ stop, Reads start (textOf blanks) stop ∧ Holds stack node stop := by
  induction blanks generalizing start with
  | nil => exact ⟨start, .nil start, holds⟩
  | cons lexeme rest ih =>
    obtain ⟨character, rfl, blank⟩ := only lexeme (by simp)
    obtain ⟨stop, reads, held⟩ := ih .complete fun later member => only later (by simp [member])
    exact ⟨stop, .cons (holds.blank blank) reads, held⟩

/-- Blanks in front of something that the reader skips blanks in front of. -/
theorem reads_blanks {state : State} {blanks : List Lexeme} (only : Blanks blanks)
    (skips : ∀ character, Text.isBlank character = true → step state character = .ok state) :
    Reads state (textOf blanks) state := by
  induction blanks with
  | nil => exact .nil state
  | cons lexeme rest ih =>
    obtain ⟨character, rfl, blank⟩ := only lexeme (by simp)
    exact .cons (skips character blank) (ih fun later member => only later (by simp [member]))

end Stencil.Document
