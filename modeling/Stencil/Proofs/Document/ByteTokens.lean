import Stencil.Proofs.Document.ByteCourse
import Stencil.Proofs.Document.Resuming

/-! The reader in bytes goes through the tokens of a text as the reader of
characters does: through blanks, string literals, keys, numbers and words. Its
finger stands between two characters where a token ends, and it is never sent
to slice the text anywhere else. -/
namespace Stencil.Document.ByteReader

variable {text front rest before : Text} {state : State} {stack : List Frame} {members : List (Text × Node)}
  {kind : UInt8 → Bool} {isMember : Char → Bool}

/-- A place of the finger between two characters, of which something holds. -/
def Between (holds : Text → Text → Prop) (place stop : Nat) : Prop :=
  ∃ front rest, holds front rest ∧ place = Text.size front ∧ stop = Text.size front

/-- A value in the given containers is complete between two characters. -/
def Completes (text : Text) (stack : List Frame) (result : Node × Nat) : (stop : Nat) → Prop :=
  Between (Passes text ⟨stack, .complete result.1⟩) result.2

/-- The text is rejected between two characters, where the reader of characters rejects it. -/
theorem unexpected_of_parse {α : Type} {post : α → Nat → Prop} {start : Nat} {expected : Expectation}
    (split : text = front ++ rest)
    (fails : Document.parse text = .error ⟨Text.size front, rest.head?, expected⟩) :
    (unexpected text expected (Text.size front) : Course α).Sound text start post := by
  rw [unexpected]
  exact .sliceToEndThen split (.rejected fails)

theorem unexpected_sound {α : Type} {post : α → Nat → Prop} {start : Nat} {expected : Expectation}
    (passes : Passes text state front rest) (stops : state.StopsAt rest ⟨expected, []⟩) :
    (unexpected text expected (Text.size front) : Course α).Sound text start post :=
  unexpected_of_parse passes.split (passes.refused stops)

/-- Characters of a class are skipped while the reader of characters takes them. -/
theorem skip_reads {next : State} (agrees : Agrees kind isMember) (passes : Passes text state front rest)
    (reads : Reads state (rest.takeWhile isMember) next) :
    (skip text kind (Text.size front)).Sound text (Text.size front) (Between fun stop later =>
      stop = front ++ rest.takeWhile isMember ∧ Passes text next stop later ∧
        ∀ character ∈ later.head?, isMember character = false) := by
  apply (skip_sound agrees passes.split).weaken
  rintro place stop ⟨rfl, rfl⟩
  have division : Passes text state front (rest.takeWhile isMember ++ rest.dropWhile isMember) := by
    rwa [List.takeWhile_append_dropWhile]
  exact ⟨_, rest.dropWhile isMember, ⟨rfl, division.reads reads, fun _ => head_dropWhile⟩, rfl, rfl⟩

/-- Blanks are skipped where they do not matter. -/
theorem blanks_sound (passes : Passes text state front rest)
    (skips : ∀ character, Text.isBlank character = true → step state character = .ok state) :
    (skip text isBlank (Text.size front)).Sound text (Text.size front) (Between fun front rest =>
      Passes text state front rest ∧ ∀ character ∈ rest.head?, Text.isBlank character = false) := by
  have blanks : ∀ character ∈ rest.takeWhile Text.isBlank, Text.isBlank character = true :=
    fun _ => List.mem_takeWhile_imp
  have reads := Reads.all skips blanks
  apply (skip_reads Agrees.isBlank passes reads).weaken
  rintro place stop ⟨front, rest, ⟨_, passes, noBlank⟩, rfl, rfl⟩
  exact ⟨front, rest, ⟨passes, noBlank⟩, rfl, rfl⟩

/-- After a key comes a colon. -/
theorem colon_sound {key : Text} (passes : Passes text ⟨stack, .colon members key⟩ front rest) :
    (expect text ':' .colon (Text.size front)).Sound text (Text.size front)
      (Between (Passes text ⟨.object members key :: stack, .value⟩)) := by
  have skips (character : Char) (blank : Text.isBlank character = true) :
      step ⟨stack, .colon members key⟩ character = .ok ⟨stack, .colon members key⟩ := if_pos blank
  apply (blanks_sound passes skips).andThen
  rintro _ _ _ ⟨front, rest, ⟨passes, noBlank⟩, rfl, rfl⟩
  apply Course.Sound.lookFor (by decide) passes.split
  · rintro later rfl
    exact .take passes.split (by decide) ⟨_, later, passes.step rfl, rfl, rfl⟩
  · intro noColon
    apply unexpected_sound passes
    apply stopsAt_of_head (fun _ => rfl)
    intro character isHead
    simp [step, afterKey, noBlank character isHead, noColon character isHead]

/-! ### Characters -/

theorem size_lt_snoc (front : Text) (character : Char) : Text.size front < Text.size (front ++ [character]) := by
  rw [Text.size_append, Text.size_cons]
  exact Nat.lt_add_of_pos_right (Nat.lt_add_right _ character.utf8Size_pos)

theorem ascii_of_isDigit {character : Char} (digit : character.isDigit = true) : character.toNat < 128 := by
  rw [Char.isDigit, Bool.and_eq_true, decide_eq_true_eq, decide_eq_true_eq] at digit
  exact Nat.lt_of_le_of_lt (UInt32.le_iff_toNat_le.mp digit.2) (by decide)

theorem ascii_of_isHexDigit {character : Char} (digit : Text.isHexDigit character = true) :
    character.toNat < 128 := by
  simp only [Text.isHexDigit, Bool.or_eq_true, Bool.and_eq_true, decide_eq_true_eq] at digit
  rcases digit with (digit | ⟨_, upTo⟩) | ⟨_, upTo⟩
  · exact ascii_of_isDigit digit
  · exact Nat.lt_of_le_of_lt (UInt32.le_iff_toNat_le.mp upTo) (by decide)
  · exact Nat.lt_of_le_of_lt (UInt32.le_iff_toNat_le.mp upTo) (by decide)

theorem ascii_of_isShortEscape {character : Char} (short : Document.isShortEscape character = true) :
    character.toNat < 128 := by
  simp only [Document.isShortEscape, Bool.or_eq_true, decide_eq_true_eq] at short
  rcases short with ((((((rfl | rfl) | rfl) | rfl) | rfl) | rfl) | rfl) | rfl <;> decide

/-! ### String literals -/

/-- The states in which a string literal is read, by what has been taken of it. -/
structure ReadsLiteral (inside : Text → Quoted → State) (closed : Text → State) : Prop where
  goesOn {read : Text} {quoted next : Quoted} {character : Char}
    (taken : stepQuoted quoted character = .ok (some next)) :
    step (inside read quoted) character = .ok (inside (read ++ [character]) next)
  closes {read : Text} {quoted : Quoted} {character : Char} (taken : stepQuoted quoted character = .ok none) :
    step (inside read quoted) character = .ok (closed read)
  refuses {read : Text} {quoted : Quoted} {character : Char} {stop : Stop}
    (refused : stepQuoted quoted character = .error stop) : step (inside read quoted) character = .error stop
  ends (read : Text) (quoted : Quoted) : finish (inside read quoted) = .error ⟨quoted.needed, []⟩

theorem readsLiteral_string (stack : List Frame) :
    ReadsLiteral (fun _ quoted => ⟨stack, .string quoted⟩) fun _ => ⟨stack, .complete .other⟩ where
  goesOn taken := by simp [step, taken, bind, Except.bind]
  closes taken := by simp [step, taken, bind, Except.bind]
  refuses refused := by simp [step, refused, bind, Except.bind]
  ends _ _ := rfl

theorem readsLiteral_key (stack : List Frame) (members : List (Text × Node)) :
    ReadsLiteral (fun read quoted => ⟨stack, .quotedKey members read.reverse quoted⟩) fun read =>
      ⟨stack, .colon members read⟩ where
  goesOn taken := by simp [step, taken, bind, Except.bind]
  closes taken := by simp [step, taken, bind, Except.bind]
  refuses refused := by simp [step, refused, bind, Except.bind]
  ends _ _ := rfl

/-- The reader is inside of a token that begins behind `before`. -/
def Within {Part : Type} (text : Text) (inside : Text → Part → State) (before : Text) (part : Part)
    (front rest : Text) : Prop :=
  ∃ read, front = before ++ read ∧ Passes text (inside read part) front rest

section Literals

variable {inside : Text → Quoted → State} {closed : Text → State} {quoted next : Quoted} {character : Char}

theorem Within.goesOn (literal : ReadsLiteral inside closed)
    (within : Within text inside before quoted front (character :: rest))
    (taken : stepQuoted quoted character = .ok (some next)) :
    Within text inside before next (front ++ [character]) rest := by
  obtain ⟨read, rfl, passes⟩ := within
  exact ⟨read ++ [character], List.append_assoc .., passes.step (literal.goesOn taken)⟩

theorem Within.split {Part : Type} {part : Part} {inside : Text → Part → State}
    (within : Within text inside before part front rest) : text = front ++ rest := by
  obtain ⟨_, _, passes⟩ := within
  exact passes.split

theorem Within.inText {Part : Type} {part : Part} {inside : Text → Part → State}
    (within : Within text inside before part front rest) : Text.size front ≤ Text.size text := by
  obtain ⟨_, _, passes⟩ := within
  exact passes.inText

/-- The reader is rejecting the text inside of a literal. -/
theorem Within.refused {α : Type} {post : α → Nat → Prop} {start : Nat} {expected : Expectation}
    (literal : ReadsLiteral inside closed) (within : Within text inside before quoted front rest)
    (atEnd : rest = [] → quoted.needed = expected)
    (refuses : ∀ character ∈ rest.head?, stepQuoted quoted character = .error ⟨expected, []⟩) :
    (unexpected text expected (Text.size front) : Course α).Sound text start post := by
  obtain ⟨read, _, passes⟩ := within
  apply unexpected_sound passes
  apply stopsAt_of_head
  · intro ended
    rw [literal.ends, atEnd ended]
  · intro character isHead
    exact literal.refuses (refuses character isHead)

/-- Inside of an escape sequence with so many hexadecimal digits to come. -/
def awaitingHex : (count : Nat) → Quoted
  | 0 => .plain
  | more + 1 => .hex more

theorem stepQuoted_hex {more : Nat} (digit : Text.isHexDigit character = true) :
    stepQuoted (.hex more) character = .ok (some (awaitingHex more)) := by
  cases more <;> simp [stepQuoted, digit, awaitingHex]

theorem hexDigits_sound (literal : ReadsLiteral inside closed) {count : Nat}
    (within : Within text inside before (awaitingHex count) front rest) :
    (hexDigits text count (Text.size front)).Sound text (Text.size front)
      (Between (Within text inside before .plain)) := by
  induction count generalizing front rest with
  | zero => exact .done ⟨front, rest, within, rfl, rfl⟩
  | succ count ih =>
    apply Course.Sound.look Agrees.isHexDigit within.split
    · rintro character later rfl digit
      apply Course.Sound.takeThen within.split (ascii_of_isHexDigit digit)
      exact ih (within.goesOn literal (stepQuoted_hex digit))
    · intro noDigit
      apply within.refused literal (fun _ => rfl)
      intro character isHead
      simp [stepQuoted, awaitingHex, Quoted.needed, noDigit character isHead]

theorem escape_sound (literal : ReadsLiteral inside closed)
    (within : Within text inside before .escape front rest) :
    (escape text (Text.size front)).Sound text (Text.size front) (Between (Within text inside before .plain)) := by
  apply Course.Sound.look Agrees.isShortEscape within.split
  · rintro character later rfl short
    have taken : stepQuoted .escape character = .ok (some .plain) := if_pos short
    exact .take within.split (ascii_of_isShortEscape short) ⟨_, later, within.goesOn literal taken, rfl, rfl⟩
  · intro noShort
    apply Course.Sound.lookForThen (by decide) within.split
    · rintro later rfl
      exact hexDigits_sound literal (within.goesOn literal rfl)
    · intro noUnicode
      apply within.refused literal (fun _ => rfl)
      intro character isHead
      simp [stepQuoted, Quoted.needed, noShort character isHead, noUnicode character isHead]

/-- The finger is in a literal, or in the middle of a character that the reader
of characters has taken already. -/
def InCharacter (text : Text) (inside : Text → Quoted → State) (before : Text) (finger : Nat) : Prop :=
  ∃ front rest, Within text inside before .plain front rest ∧ finger ≤ Text.size front ∧
    ∀ place, finger ≤ place → place < Text.size front → sees text place isBeyondAscii = true

/-- Behind the first byte of a character, its other bytes are outside of ASCII. -/
theorem sees_behind {character : Char} (split : text = front ++ character :: rest) {place : Nat}
    (behind : Text.size front + 1 ≤ place) (before : place < Text.size (front ++ [character])) :
    sees text place isBeyondAscii = true := by
  by_cases ascii : character.toNat < 128
  · rw [Text.size_append, Text.size_ascii ascii] at before
    omega
  · have division : text = front ++ [character] ++ rest := by
      rw [split, List.append_assoc, List.singleton_append]
    apply sees_inside Agrees.isBeyondAscii division _ (by omega) before
    intro other member
    obtain rfl := List.mem_singleton.mp member
    exact decide_eq_true (Nat.le_of_not_lt ascii)

theorem not_is_of_isBeyondAscii {wanted : Char} (ascii : wanted.toNat < 128) {byte : UInt8}
    (beyond : isBeyondAscii byte = true) : ¬ is wanted byte = true := by
  intro isWanted
  have high : 128 ≤ byte.toNat := UInt8.le_iff_toNat_le.mp (of_decide_eq_true beyond)
  rw [of_decide_eq_true isWanted, Text.toNat_toUInt8 ascii] at high
  exact Nat.not_le_of_lt ascii high

/-- How a turn of the reader in a literal ends. -/
def LiteralTurnEnds (text : Text) (inside : Text → Quoted → State) (closed : Text → State) (before : Text) :
    (finger : Nat) → Turn Unit Text × Nat → Nat → Prop :=
  Turn.Ends text (fun _ => InCharacter text inside before) fun result =>
    Between (Passes text (closed result.1)) result.2

/-- In the middle of a character, one more byte of it is taken. -/
theorem stringTurn_inside {start finger : Nat} (within : Within text inside before .plain front rest)
    (behind : finger < Text.size front)
    (outside : ∀ place, finger ≤ place → place < Text.size front → sees text place isBeyondAscii = true) :
    (stringTurn text start () finger).Sound text finger (LiteralTurnEnds text inside closed before finger) := by
  obtain ⟨byte, found, saw⟩ := Option.any_eq_true _ _ |>.mp (outside finger (Nat.le_refl _) behind)
  have noQuote : ¬ is '"' byte = true := not_is_of_isBeyondAscii (by decide) saw
  have noBackslash : ¬ is '\\' byte = true := not_is_of_isBeyondAscii (by decide) saw
  have noControl : ¬ isControl byte = true := by
    intro isControl
    have high : 0x80 ≤ byte := of_decide_eq_true saw
    have low : byte < 0x20 := of_decide_eq_true isControl
    exact absurd (UInt8.lt_of_le_of_lt high low) (by decide)
  have inText := within.inText
  rw [stringTurn, found]
  simp only [if_neg noQuote, if_neg noBackslash, if_neg noControl]
  refine .moveThen (Nat.lt_succ_self finger) (by omega) (.done ⟨rfl, Nat.lt_succ_self finger, by omega, ?_⟩)
  exact ⟨front, rest, within, behind, fun place further => outside place (by omega)⟩

/-- Between two characters, what is taken depends on the next one. -/
theorem stringTurn_at {later : Text} (literal : ReadsLiteral inside closed)
    (within : Within text inside before .plain front (character :: later)) :
    (stringTurn text (Text.size before) () (Text.size front)).Sound text (Text.size front)
      (LiteralTurnEnds text inside closed before (Text.size front)) := by
  obtain ⟨first, more, encoded, -⟩ := Text.exists_first_byte character
  have member : first ∈ String.utf8EncodeChar character := encoded ▸ List.mem_cons_self
  have found : text.bytes[Text.size front]? = some first := by
    rw [getElem?_at within.split, Text.bytes_cons, encoded]
    rfl
  have quote : is '"' first = decide (character = '"') := Agrees.is (by decide) character first member
  have backslash : is '\\' first = decide (character = '\\') := Agrees.is (by decide) character first member
  have control : isControl first = decide (character.toNat < 0x20) := Agrees.isControl character first member
  rw [stringTurn, found]
  simp only [quote, backslash, control]
  apply Course.Sound.choose
  · intro isQuote
    obtain rfl := of_decide_eq_true isQuote
    obtain ⟨read, rfl, passes⟩ := within
    apply Course.Sound.sliceThen passes.split
    apply Course.Sound.takeThen passes.split (by decide)
    exact .done ⟨_, later, passes.step (literal.closes rfl), rfl, rfl⟩
  intro noQuote
  apply Course.Sound.choose
  · intro isBackslash
    obtain rfl := of_decide_eq_true isBackslash
    apply Course.Sound.takeThen within.split (by decide)
    apply (escape_sound literal (within.goesOn literal rfl)).andThen
    rintro _ _ onward ⟨front, rest, within, rfl, rfl⟩
    have further := Nat.lt_of_lt_of_le (size_lt_snoc _ '\\') onward
    refine .done ⟨rfl, further, within.inText, front, rest, within, Nat.le_refl _, ?_⟩
    intro place behind before
    omega
  intro noBackslash
  have otherQuote : character ≠ '"' := mt decide_eq_true noQuote
  have otherBackslash : character ≠ '\\' := mt decide_eq_true noBackslash
  apply Course.Sound.choose
  · intro isControl
    apply within.refused literal nofun
    rintro _ ⟨⟩
    simp [stepQuoted, otherQuote, otherBackslash, of_decide_eq_true isControl]
  · intro noControl
    have taken : stepQuoted .plain character = .ok (some .plain) := by
      simp [stepQuoted, otherQuote, otherBackslash, mt decide_eq_true noControl]
    have within' := within.goesOn literal taken
    have further := size_lt_snoc front character
    have inText := within'.inText
    refine .moveThen (Nat.lt_succ_self _) (by omega) (.done ⟨rfl, Nat.lt_succ_self _, by omega, ?_⟩)
    exact ⟨_, later, within', further, fun place => sees_behind within.split⟩

/-- **A turn in a literal takes a byte of it, an escape sequence, or the quote that closes it.** -/
theorem stringTurn_sound (literal : ReadsLiteral inside closed) {finger : Nat}
    (inCharacter : InCharacter text inside before finger) :
    (stringTurn text (Text.size before) () finger).Sound text finger
      (LiteralTurnEnds text inside closed before finger) := by
  obtain ⟨front, rest, within, upTo, outside⟩ := inCharacter
  rcases Nat.lt_or_eq_of_le upTo with behind | rfl
  · exact stringTurn_inside within behind outside
  · cases rest with
    | nil =>
      have ended : text.bytes[Text.size front]? = none := getElem?_at within.split
      rw [stringTurn, ended]
      exact within.refused literal (fun _ => rfl) nofun
    | cons character later => exact stringTurn_at literal within

/-- **A string literal is read as the reader of characters reads it.** -/
theorem string_sound {later : Text} (literal : ReadsLiteral inside closed)
    (passes : Passes text state front ('"' :: later)) (opens : step state '"' = .ok (inside [] .plain)) :
    (string text (Text.size front)).Sound text (Text.size front) fun result =>
      Between (Passes text (closed result.1)) result.2 := by
  apply Course.Sound.takeThen passes.split (by decide)
  apply Course.Sound.loop fun _ => InCharacter text inside (front ++ ['"'])
  · rintro ⟨⟩ finger inCharacter
    exact stringTurn_sound literal inCharacter
  · refine ⟨front ++ ['"'], later, ⟨[], (List.append_nil _).symm, passes.step opens⟩, Nat.le_refl _, ?_⟩
    intro place behind before
    omega

end Literals

/-! ### Keys -/

/-- **A key is read as the reader of characters reads it.** -/
theorem key_sound (passes : Passes text ⟨stack, .key members⟩ front rest)
    (noBlank : ∀ character ∈ rest.head?, Text.isBlank character = false) :
    (key text (Text.size front)).Sound text (Text.size front) fun result =>
      Between (Passes text ⟨stack, .colon members result.1⟩) result.2 := by
  apply Course.Sound.lookFor (by decide) passes.split
  · rintro later rfl
    exact string_sound (readsLiteral_key stack members) passes rfl
  intro noQuote
  apply Course.Sound.look Agrees.isKeyByte passes.split
  · rintro first later rfl isFirst
    have begins : step ⟨stack, .key members⟩ first = .ok ⟨stack, .bareKey members [first]⟩ := by
      simp [step, beginKey, noBlank first rfl, noQuote first rfl, isFirst]
    have characters : ∀ character ∈ later.takeWhile isKeyCharacter, isKeyCharacter character = true :=
      fun _ => List.mem_takeWhile_imp
    have reads := Reads.cons begins (reads_bareKey [first] characters)
    rw [← List.takeWhile_cons_of_pos isFirst] at reads
    apply (skip_reads Agrees.isKeyByte passes reads).andThen
    rintro _ _ _ ⟨_, rest, ⟨rfl, passes, noKey⟩, rfl, rfl⟩
    apply Course.Sound.sliceThen passes.split
    refine .done ⟨_, rest, passes.exchange rfl ?_, rfl, rfl⟩
    intro character isHead
    simp [step, noKey character isHead, isFirst]
  · intro noKey
    apply unexpected_sound passes
    apply stopsAt_of_head (fun _ => rfl)
    intro character isHead
    simp [step, beginKey, noBlank character isHead, noQuote character isHead, noKey character isHead]

/-! ### Numbers -/

/-- The reader is inside of a number that begins behind `before`. -/
def InNumber (text : Text) (stack : List Frame) : (before : Text) → NumberPart → (front rest : Text) → Prop :=
  Within text fun read part => ⟨stack, .number part read.reverse⟩

/-- A digit must come, with which some part of a number begins. -/
def AwaitsDigit (text : Text) (stack : List Frame) (before : Text) (begun : Char → NumberPart)
    (front rest : Text) : Prop :=
  ∃ read state, front = before ++ read ∧ Passes text state front rest ∧
    (∀ digit : Char, digit.isDigit = true →
      step state digit = .ok ⟨stack, .number (begun digit) (digit :: read.reverse)⟩) ∧
    ((∀ character ∈ rest.head?, character.isDigit = false) → state.StopsAt rest ⟨.digit, []⟩)

/-- A number may end here. It goes on only with certain characters. -/
def MayEnd (text : Text) (stack : List Frame) (before : Text) (decimal : Bool)
    (goesOn : Char → Option NumberPart) (front rest : Text) : Prop :=
  ∃ part : NumberPart, part.isComplete = true ∧
    (∀ read, part.node read = if decimal then .other else .integer read.reverse) ∧
    InNumber text stack before part front rest ∧
    ∀ character ∈ rest.head?, stepNumber part character = .ok (goesOn character)

section Numbers

variable {part next : NumberPart} {character : Char} {begun : Char → NumberPart} {decimal : Bool}

theorem InNumber.goesOn (within : InNumber text stack before part front (character :: rest))
    (taken : stepNumber part character = .ok (some next)) :
    InNumber text stack before next (front ++ [character]) rest := by
  obtain ⟨read, rfl, passes⟩ := within
  refine ⟨read ++ [character], List.append_assoc .., passes.step ?_⟩
  simp [step, taken, bind, Except.bind]

/-- A part of a number after which a digit must come. -/
theorem InNumber.awaits (within : InNumber text stack before part front rest)
    (incomplete : part.isComplete = false)
    (begins : ∀ digit : Char, digit.isDigit = true → stepNumber part digit = .ok (some (begun digit)))
    (refuses : ∀ character ∈ rest.head?, character.isDigit = false →
      stepNumber part character = .error ⟨.digit, []⟩) : AwaitsDigit text stack before begun front rest := by
  obtain ⟨read, rfl, passes⟩ := within
  refine ⟨read, _, rfl, passes, ?_, ?_⟩
  · intro digit isDigit
    simp [step, begins digit isDigit, bind, Except.bind]
  · intro noDigit
    apply stopsAt_of_head
    · intro _
      simp [finish, incomplete]
    · intro character isHead
      simp [step, refuses character isHead (noDigit character isHead), bind, Except.bind]

theorem AwaitsDigit.split (awaits : AwaitsDigit text stack before begun front rest) : text = front ++ rest := by
  obtain ⟨_, _, _, passes, _⟩ := awaits
  exact passes.split

theorem AwaitsDigit.taken {digit : Char} (awaits : AwaitsDigit text stack before begun front (digit :: rest))
    (isDigit : digit.isDigit = true) : InNumber text stack before (begun digit) (front ++ [digit]) rest := by
  obtain ⟨read, _, rfl, passes, begins, _⟩ := awaits
  have taken := passes.step (begins digit isDigit)
  rw [← List.reverse_concat] at taken
  exact ⟨read ++ [digit], List.append_assoc .., taken⟩

/-- A digit and those behind it are taken. -/
theorem AwaitsDigit.skip {first : Char} {later : Text}
    (awaits : AwaitsDigit text stack before begun front (first :: later)) (digit : first.isDigit = true)
    (keeps : ∀ digit : Char, digit.isDigit = true → stepNumber (begun first) digit = .ok (some (begun first))) :
    (skip text isDigit (Text.size front)).Sound text (Text.size front) (Between fun front rest =>
      InNumber text stack before (begun first) front rest ∧
        ∀ character ∈ rest.head?, character.isDigit = false) := by
  obtain ⟨read, state, rfl, passes, begins, _⟩ := awaits
  have digits : ∀ character ∈ later.takeWhile Char.isDigit, character.isDigit = true :=
    fun _ => List.mem_takeWhile_imp
  have taken := reads_number stack (first :: read.reverse) (readNumber_digits keeps digits)
  have reads := Reads.cons (begins first digit) taken
  rw [← List.takeWhile_cons_of_pos digit] at reads
  apply (skip_reads Agrees.isDigit passes reads).weaken
  rintro _ _ ⟨_, rest, ⟨rfl, passes, noDigit⟩, rfl, rfl⟩
  refine ⟨_, rest, ⟨⟨_, List.append_assoc .., ?_⟩, noDigit⟩, rfl, rfl⟩
  rw [List.takeWhile_cons_of_pos digit] at passes ⊢
  simpa using passes

theorem AwaitsDigit.refused {α : Type} {post : α → Nat → Prop} {start : Nat}
    (awaits : AwaitsDigit text stack before begun front rest)
    (noDigit : ∀ character ∈ rest.head?, character.isDigit = false) :
    (unexpected text .digit (Text.size front) : Course α).Sound text start post := by
  obtain ⟨_, _, _, passes, _, stops⟩ := awaits
  exact unexpected_sound passes (stops noDigit)

/-- The digits of a fraction or of an exponent. -/
theorem digits_sound (awaits : AwaitsDigit text stack before (fun _ => part) front rest)
    (keeps : ∀ digit : Char, digit.isDigit = true → stepNumber part digit = .ok (some part)) :
    (digits text (Text.size front)).Sound text (Text.size front) (Between fun front rest =>
      InNumber text stack before part front rest ∧ ∀ character ∈ rest.head?, character.isDigit = false) := by
  apply Course.Sound.look Agrees.isDigit awaits.split
  · rintro first later rfl digit
    exact awaits.skip digit keeps
  · intro noDigit
    exact awaits.refused noDigit

/-- A number starts with a minus or with a digit. -/
theorem minus_sound {first : Char} {later : Text} (passes : Passes text ⟨stack, .value⟩ front (first :: later))
    (starts : first = '-' ∨ first.isDigit = true) :
    (minus text (Text.size front)).Sound text (Text.size front)
      (Between (AwaitsDigit text stack front wholePart)) := by
  apply Course.Sound.lookFor (by decide) passes.split
  · rintro _ ⟨⟩
    have within : InNumber text stack front .minus (front ++ ['-']) later := ⟨['-'], rfl, passes.step rfl⟩
    refine .take passes.split (by decide) ⟨_, later, within.awaits rfl (fun _ => stepNumber_minus) ?_, rfl, rfl⟩
    intro character _ noDigit
    have noZero : character ≠ '0' := by
      rintro rfl
      cases noDigit
    simp [stepNumber, noDigit, noZero]
  · intro noMinus
    have digit : first.isDigit = true := starts.resolve_left (noMinus first rfl)
    refine .done ⟨front, _, ⟨[], _, (List.append_nil _).symm, passes, ?_, ?_⟩, rfl, rfl⟩
    · intro digit isDigit
      simp [step, isBlank_digit isDigit, beginValue_digit stack isDigit]
    · intro noDigit
      rw [noDigit first rfl] at digit
      cases digit

/-- The mark of an exponent, after which its sign or digits come. -/
def markPart (character : Char) : Option NumberPart :=
  if character = 'e' || character = 'E' then some .exponentMark else none

/-- The point of a fraction, or the mark of an exponent. -/
def pointPart (character : Char) : Option NumberPart :=
  if character = '.' then some .point else markPart character

theorem stepNumber_zero (character : Char) : stepNumber .zero character = .ok (pointPart character) := by
  rw [stepNumber, pointPart, markPart]
  split
  · rfl
  · split <;> rfl

theorem stepNumber_integer_end (noDigit : character.isDigit = false) :
    stepNumber .integer character = .ok (pointPart character) := by
  rw [← stepNumber_zero]
  simp only [stepNumber, noDigit, Bool.false_eq_true, if_false]

theorem stepNumber_fraction_end (noDigit : character.isDigit = false) :
    stepNumber .fraction character = .ok (markPart character) := by
  rw [stepNumber, noDigit, markPart, if_neg Bool.false_ne_true]
  split <;> rfl

theorem whole_sound (awaits : AwaitsDigit text stack before wholePart front rest) :
    (whole text (Text.size front)).Sound text (Text.size front)
      (Between (MayEnd text stack before false pointPart)) := by
  apply Course.Sound.lookFor (by decide) awaits.split
  · rintro later rfl
    have within : InNumber text stack before .zero (front ++ ['0']) later := awaits.taken rfl
    have mayEnd : MayEnd text stack before false pointPart (front ++ ['0']) later :=
      ⟨.zero, rfl, fun _ => rfl, within, fun character _ => stepNumber_zero character⟩
    exact .take awaits.split (by decide) ⟨_, later, mayEnd, rfl, rfl⟩
  intro noZero
  apply Course.Sound.look Agrees.isDigit awaits.split
  · rintro first later rfl digit
    have positive : wholePart first = .integer := if_neg (noZero first rfl)
    apply (awaits.skip digit _).weaken
    · rw [positive]
      rintro _ _ ⟨_, rest, ⟨within, noDigit⟩, rfl, rfl⟩
      refine ⟨_, rest, ⟨.integer, rfl, fun _ => rfl, within, ?_⟩, rfl, rfl⟩
      intro character isHead
      exact stepNumber_integer_end (noDigit character isHead)
    · rw [positive]
      exact fun _ => stepNumber_integer
  · intro noDigit
    exact awaits.refused noDigit

theorem fraction_sound (mayEnd : MayEnd text stack before false pointPart front rest) :
    (fraction text (Text.size front)).Sound text (Text.size front) fun result =>
      Between (MayEnd text stack before result.1 markPart) result.2 := by
  obtain ⟨part, complete, denotes, within, goesOn⟩ := mayEnd
  apply Course.Sound.lookForThen (by decide) within.split
  · rintro later rfl
    have point : InNumber text stack before .point (front ++ ['.']) later := within.goesOn (goesOn '.' rfl)
    have awaits : AwaitsDigit text stack before (fun _ => .fraction) (front ++ ['.']) later :=
      point.awaits rfl (fun _ digit => if_pos digit) fun _ _ noDigit => by simp [stepNumber, noDigit]
    apply (digits_sound awaits fun _ => stepNumber_fraction).andThen
    rintro _ _ _ ⟨_, rest, ⟨within, noDigit⟩, rfl, rfl⟩
    refine .done ⟨_, rest, ⟨.fraction, rfl, fun _ => rfl, within, ?_⟩, rfl, rfl⟩
    intro character isHead
    exact stepNumber_fraction_end (noDigit character isHead)
  · intro noPoint
    refine .done ⟨front, rest, ⟨part, complete, denotes, within, ?_⟩, rfl, rfl⟩
    intro character isHead
    rw [goesOn character isHead, pointPart, if_neg (noPoint character isHead)]

theorem exponentSign_sound (within : InNumber text stack before .exponentMark front rest) :
    (exponentSign text (Text.size front)).Sound text (Text.size front)
      (Between (AwaitsDigit text stack before fun _ => .exponent)) := by
  apply Course.Sound.look ((Agrees.is (by decide)).either (Agrees.is (by decide))) within.split
  · rintro character later rfl isSign
    have taken : stepNumber .exponentMark character = .ok (some .exponentSign) := if_pos isSign
    have awaits : AwaitsDigit text stack before (fun _ => .exponent) (front ++ [character]) later :=
      (within.goesOn taken).awaits rfl (fun _ digit => if_pos digit) fun _ _ noDigit => by
        simp [stepNumber, noDigit]
    have ascii : character.toNat < 128 := by
      rw [Bool.or_eq_true, decide_eq_true_eq, decide_eq_true_eq] at isSign
      rcases isSign with rfl | rfl <;> decide
    exact .take within.split ascii ⟨_, later, awaits, rfl, rfl⟩
  · intro noSign
    refine .done ⟨front, rest, within.awaits rfl (fun _ => stepNumber_exponentMark) ?_, rfl, rfl⟩
    intro character isHead noDigit
    rw [stepNumber, if_neg (Bool.eq_false_iff.mp (noSign character isHead)), noDigit]
    rfl

theorem exponent_sound (mayEnd : MayEnd text stack before decimal markPart front rest) :
    (exponent text (Text.size front)).Sound text (Text.size front) fun result =>
      Between (MayEnd text stack before (decimal || result.1) fun _ => none) result.2 := by
  obtain ⟨part, complete, denotes, within, goesOn⟩ := mayEnd
  apply Course.Sound.look ((Agrees.is (by decide)).either (Agrees.is (by decide))) within.split
  · rintro character later rfl isMark
    have ascii : character.toNat < 128 := by
      rw [Bool.or_eq_true, decide_eq_true_eq, decide_eq_true_eq] at isMark
      rcases isMark with rfl | rfl <;> decide
    have taken : stepNumber part character = .ok (some .exponentMark) := by
      rw [goesOn character rfl, markPart, if_pos isMark]
    apply Course.Sound.takeThen within.split ascii
    apply (exponentSign_sound (within.goesOn taken)).andThen
    rintro _ _ _ ⟨_, rest, awaits, rfl, rfl⟩
    apply (digits_sound awaits fun _ => stepNumber_exponent).andThen
    rintro _ _ _ ⟨_, rest, ⟨within, noDigit⟩, rfl, rfl⟩
    refine .done ⟨_, rest, ⟨.exponent, rfl, fun _ => by rw [Bool.or_true]; rfl, within, ?_⟩, rfl, rfl⟩
    intro character isHead
    simp [stepNumber, noDigit character isHead]
  · intro noMark
    rw [← Bool.or_false decimal] at denotes
    refine .done ⟨front, rest, ⟨part, complete, denotes, within, ?_⟩, rfl, rfl⟩
    intro character isHead
    rw [goesOn character isHead, markPart, if_neg (Bool.eq_false_iff.mp (noMark character isHead))]

/-- **A number is read as the reader of characters reads it.** -/
theorem number_sound {first : Char} {later : Text} (passes : Passes text ⟨stack, .value⟩ front (first :: later))
    (starts : first = '-' ∨ first.isDigit = true) :
    (number text (Text.size front)).Sound text (Text.size front) (Completes text stack) := by
  apply (minus_sound passes starts).andThen
  rintro _ _ _ ⟨_, _, awaits, rfl, rfl⟩
  apply (whole_sound awaits).andThen
  rintro _ _ _ ⟨_, _, mayEnd, rfl, rfl⟩
  apply (fraction_sound mayEnd).andThen
  rintro ⟨fractional, _⟩ _ _ ⟨_, _, mayEnd, rfl, rfl⟩
  apply (exponent_sound mayEnd).andThen
  rintro ⟨scaled, _⟩ _ _ ⟨_, rest, ⟨part, complete, denotes, ⟨read, rfl, passes⟩, ends⟩, rfl, rfl⟩
  have completed : Passes text ⟨stack, .complete (part.node read.reverse)⟩ (front ++ read) rest := by
    apply passes.exchange
    · simp [finish, complete]
    · intro character isHead
      simp [step, ends character isHead, bind, Except.bind]
  rw [denotes, List.reverse_reverse] at completed
  apply Course.Sound.choose
  · intro decimal
    rw [if_pos decimal] at completed
    exact .done ⟨_, rest, completed, rfl, rfl⟩
  · intro integer
    rw [if_neg integer] at completed
    apply Course.Sound.sliceThen completed.split
    exact .done ⟨_, rest, completed, rfl, rfl⟩

end Numbers

/-! ### Words -/

/-- **A word is read as the reader of characters reads it.** -/
theorem word_sound {first second : Char} {others later : Text}
    (passes : Passes text ⟨stack, .value⟩ front (first :: later))
    (begins : step ⟨stack, .value⟩ first = .ok ⟨stack, .word [first] second others⟩) :
    (word text (first :: second :: others) (Text.size front)).Sound text (Text.size front) (Completes text stack) := by
  apply Course.Sound.sliceToEndThen passes.split
  cases spelt : Text.after? (first :: second :: others) (first :: later) with
  | some rest =>
    have written := Text.after?_eq_some_iff.mp spelt
    rw [written] at passes
    have completed := passes.reads (.cons begins (reads_word [first] others second))
    have inText := completed.inText
    have onward : Text.size front < Text.size (front ++ first :: second :: others) := by
      rw [Text.size_append, Text.size_cons]
      exact Nat.lt_add_of_pos_right (Nat.lt_add_right _ first.utf8Size_pos)
    rw [← Text.size_append]
    exact .moveThen onward inText (.done ⟨_, rest, completed, rfl, rfl⟩)
  | none =>
    have begun := passes.step begins
    rw [Text.after?, if_pos rfl] at spelt
    apply unexpected_of_parse passes.split
    rw [begun.resumes, resume_misspelt spelt, Text.size_append, Nat.add_sub_cancel]
    rfl

end Stencil.Document.ByteReader
