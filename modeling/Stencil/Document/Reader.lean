import Stencil.Document.Node
import Stencil.Document.SyntaxError
import Stencil.Text.CharClass

/-! The reader of relaxed JSON: strict JSON in which object keys may stand
without quotes. It takes one character at a time and remembers the containers
it is inside of, so a text is read by running through its characters, and
reading two texts one after the other is reading them joined (`run_append`). -/

namespace Stencil.Document

/-- A container whose next member or item is being read, with what it holds so
far, the latest first. -/
inductive Frame where
  | object (members : List (Text × Node)) (key : Text)
  | array (items : List Node)
deriving Repr, BEq

/-- Where the reader is inside of a string literal. -/
inductive Quoted where
  | plain
  /-- After a backslash. -/
  | escape
  /-- After `\u`, with this many hexadecimal digits to come after the next one. -/
  | hex (more : Nat)
deriving Repr, BEq, DecidableEq

/-- The part of a number that was read last. -/
inductive NumberPart where
  | minus
  | zero
  | integer
  | point
  | fraction
  | exponentMark
  | exponentSign
  | exponent
deriving Repr, BEq, DecidableEq

/-- What the reader is in the middle of. Texts that are still being read are
kept with the latest character first. -/
inductive Mode where
  /-- A value must begin. -/
  | value
  /-- After an opening bracket. -/
  | firstItem
  /-- After an opening brace. -/
  | firstKey
  /-- After a comma in an object with these members. -/
  | key (members : List (Text × Node))
  | bareKey (members : List (Text × Node)) (read : Text)
  | quotedKey (members : List (Text × Node)) (read : Text) (quoted : Quoted)
  /-- After a key. -/
  | colon (members : List (Text × Node)) (key : Text)
  | string (quoted : Quoted)
  | number (part : NumberPart) (read : Text)
  /-- Inside of one of the words: the letters read so far in order, the next one, and those after it. -/
  | word (read : Text) (next : Char) (later : Text)
  /-- After a complete value. -/
  | complete (node : Node)
deriving Repr, BEq

/-- The reader between two characters: the containers that it is inside of,
the innermost first, and what it is in the middle of there. -/
structure State where
  stack : List Frame
  mode : Mode
deriving Repr, BEq

/-- The reader before the first character. -/
def State.initial : State := ⟨[], .value⟩

/-- Why the reader cannot go on. `back` is the text from the place of the error
up to the character at hand: it is empty but for a misspelt word, which is
reported at its first letter. -/
structure Stop where
  expected : Expectation
  back : Text := []
deriving Repr, BEq

/-- The character with which a value begins. -/
def beginValue (stack : List Frame) (character : Char) : Except Stop State :=
  if character = '\x7b' then
    if stack.length < depthLimit then .ok ⟨stack, .firstKey⟩ else .error ⟨.shallowerData, []⟩
  else if character = '[' then
    if stack.length < depthLimit then .ok ⟨stack, .firstItem⟩ else .error ⟨.shallowerData, []⟩
  else if character = '"' then .ok ⟨stack, .string .plain⟩
  else if character = '-' then .ok ⟨stack, .number .minus [character]⟩
  else if character = '0' then .ok ⟨stack, .number .zero [character]⟩
  else if character.isDigit then .ok ⟨stack, .number .integer [character]⟩
  else if character = 't' then .ok ⟨stack, .word [character] 'r' ['u', 'e']⟩
  else if character = 'f' then .ok ⟨stack, .word [character] 'a' ['l', 's', 'e']⟩
  else if character = 'n' then .ok ⟨stack, .word [character] 'u' ['l', 'l']⟩
  else .error ⟨.value, []⟩

/-- The first character of a key. -/
def beginKey (stack : List Frame) (members : List (Text × Node)) (character : Char) :
    Except Stop State :=
  if Text.isBlank character then .ok ⟨stack, .key members⟩
  else if character = '"' then .ok ⟨stack, .quotedKey members [] .plain⟩
  else if isKeyCharacter character then .ok ⟨stack, .bareKey members [character]⟩
  else .error ⟨.key, []⟩

/-- A character after a key and before its value. -/
def afterKey (stack : List Frame) (members : List (Text × Node)) (key : Text) (character : Char) :
    Except Stop State :=
  if Text.isBlank character then .ok ⟨stack, .colon members key⟩
  else if character = ':' then .ok ⟨.object members key :: stack, .value⟩
  else .error ⟨.colon, []⟩

/-- What must follow a complete value, by the container around it. -/
def followerOf : List Frame → Expectation
  | [] => .endOfInput
  | .object _ _ :: _ => .commaOrBrace
  | .array _ :: _ => .commaOrBracket

/-- A character after a complete value. -/
def afterValue (stack : List Frame) (node : Node) (character : Char) : Except Stop State :=
  if Text.isBlank character then .ok ⟨stack, .complete node⟩
  else
    match stack with
    | .object members key :: outer =>
      if character = ',' then .ok ⟨outer, .key ((key, node) :: members)⟩
      else if character = '\x7d' then .ok ⟨outer, .complete (.object ((key, node) :: members).reverse)⟩
      else .error ⟨followerOf stack, []⟩
    | .array items :: outer =>
      if character = ',' then .ok ⟨.array (node :: items) :: outer, .value⟩
      else if character = ']' then .ok ⟨outer, .complete (.array (node :: items).reverse)⟩
      else .error ⟨followerOf stack, []⟩
    | [] => .error ⟨followerOf stack, []⟩

/-- A character inside of a string literal; none when it closes the literal. -/
def stepQuoted (quoted : Quoted) (character : Char) : Except Stop (Option Quoted) :=
  match quoted with
  | .plain =>
    if character = '"' then .ok none
    else if character = '\\' then .ok (some .escape)
    else if character.toNat < 0x20 then .error ⟨.closingQuoteOrEscape, []⟩
    else .ok (some .plain)
  | .escape =>
    if isShortEscape character then .ok (some .plain)
    else if character = 'u' then .ok (some (.hex 3))
    else .error ⟨.escape, []⟩
  | .hex more =>
    if Text.isHexDigit character then .ok (some (if more = 0 then .plain else .hex (more - 1)))
    else .error ⟨.hexDigit, []⟩

/-- The part of a number that a character continues it with. None means that
the number is complete and the character is not part of it any more. -/
def stepNumber (part : NumberPart) (character : Char) : Except Stop (Option NumberPart) :=
  match part with
  | .minus =>
    if character = '0' then .ok (some .zero)
    else if character.isDigit then .ok (some .integer)
    else .error ⟨.digit, []⟩
  | .zero =>
    if character = '.' then .ok (some .point)
    else if character = 'e' || character = 'E' then .ok (some .exponentMark)
    else .ok none
  | .integer =>
    if character.isDigit then .ok (some .integer)
    else if character = '.' then .ok (some .point)
    else if character = 'e' || character = 'E' then .ok (some .exponentMark)
    else .ok none
  | .point => if character.isDigit then .ok (some .fraction) else .error ⟨.digit, []⟩
  | .fraction =>
    if character.isDigit then .ok (some .fraction)
    else if character = 'e' || character = 'E' then .ok (some .exponentMark)
    else .ok none
  | .exponentMark =>
    if character = '+' || character = '-' then .ok (some .exponentSign)
    else if character.isDigit then .ok (some .exponent)
    else .error ⟨.digit, []⟩
  | .exponentSign => if character.isDigit then .ok (some .exponent) else .error ⟨.digit, []⟩
  | .exponent => if character.isDigit then .ok (some .exponent) else .ok none

/-- Whether a number can end after the given part. -/
def NumberPart.isComplete : NumberPart → Bool
  | .zero | .integer | .fraction | .exponent => true
  | .minus | .point | .exponentMark | .exponentSign => false

/-- The value of a number that ends after the given part. -/
def NumberPart.node (part : NumberPart) (read : Text) : Node :=
  match part with
  | .zero | .integer => .integer read.reverse
  | _ => .other

/-- Takes one character. -/
def step (state : State) (character : Char) : Except Stop State :=
  let stack := state.stack
  match state.mode with
  | .value => if Text.isBlank character then .ok ⟨stack, .value⟩ else beginValue stack character
  | .firstItem =>
    if Text.isBlank character then .ok ⟨stack, .firstItem⟩
    else if character = ']' then .ok ⟨stack, .complete (.array [])⟩
    else beginValue (.array [] :: stack) character
  | .firstKey =>
    if Text.isBlank character then .ok ⟨stack, .firstKey⟩
    else if character = '\x7d' then .ok ⟨stack, .complete (.object [])⟩
    else beginKey stack [] character
  | .key members => beginKey stack members character
  | .bareKey members read =>
    if isKeyCharacter character then .ok ⟨stack, .bareKey members (character :: read)⟩
    else afterKey stack members read.reverse character
  | .quotedKey members read quoted => do
    match ← stepQuoted quoted character with
    | some quoted => .ok ⟨stack, .quotedKey members (character :: read) quoted⟩
    | none => .ok ⟨stack, .colon members read.reverse⟩
  | .colon members key => afterKey stack members key character
  | .string quoted => do
    match ← stepQuoted quoted character with
    | some quoted => .ok ⟨stack, .string quoted⟩
    | none => .ok ⟨stack, .complete .other⟩
  | .number part read => do
    match ← stepNumber part character with
    | some part => .ok ⟨stack, .number part (character :: read)⟩
    | none => afterValue stack (part.node read) character
  | .word read next later =>
    if character = next then
      match later with
      | [] => .ok ⟨stack, .complete .other⟩
      | next :: later => .ok ⟨stack, .word (read ++ [character]) next later⟩
    else .error ⟨.value, read⟩
  | .complete node => afterValue stack node character

/-- What the reader still needs at the end of a string literal's text. -/
def Quoted.needed : Quoted → Expectation
  | .plain => .closingQuote
  | .escape => .escape
  | .hex _ => .hexDigit

/-- Ends the text after a complete value, which must not be in a container. -/
def finishValue (stack : List Frame) (node : Node) : Except Stop Node :=
  if stack.isEmpty then .ok node else .error ⟨followerOf stack, []⟩

/-- Ends the text: the value that was read, if it is complete and in no container. -/
def finish (state : State) : Except Stop Node :=
  match state.mode with
  | .value | .firstItem => .error ⟨.value, []⟩
  | .firstKey | .key _ => .error ⟨.key, []⟩
  | .bareKey _ _ | .colon _ _ => .error ⟨.colon, []⟩
  | .quotedKey _ _ quoted | .string quoted => .error ⟨quoted.needed, []⟩
  | .number part read =>
    if part.isComplete then finishValue state.stack (part.node read) else .error ⟨.digit, []⟩
  | .word read _ _ => .error ⟨.value, read⟩
  | .complete node => finishValue state.stack node

/-- The error of a reader that stopped at a byte offset, before the given rest of the text. -/
def Stop.toSyntaxError (stop : Stop) (position : Nat) (rest : Text) : SyntaxError where
  position := position - Text.size stop.back
  found := (stop.back ++ rest).head?
  expected := stop.expected

/-- Reads on from a state, at the given byte offset. -/
def run : State → Nat → Text → Except SyntaxError State
  | state, _, [] => .ok state
  | state, position, character :: rest =>
    match step state character with
    | .ok next => run next (position + character.utf8Size) rest
    | .error stop => .error (stop.toSyntaxError position (character :: rest))

/-- Reads a text as a document. -/
def parse (text : Text) : Except SyntaxError Node := do
  let last ← run State.initial 0 text
  match finish last with
  | .ok root => .ok root
  | .error stop => .error (stop.toSyntaxError (Text.size text) [])

/-- A text that was read up to some place is read on from there. -/
theorem run_append {start middle : State} {position : Nat} {front : Text}
    (reads : run start position front = .ok middle) (back : Text) :
    run start position (front ++ back) = run middle (position + Text.size front) back := by
  induction front generalizing start position with
  | nil =>
    simp only [run, Except.ok.injEq] at reads
    simp [reads]
  | cons character rest ih =>
    rw [List.cons_append, run]
    rw [run] at reads
    cases stepped : step start character with
    | error stop => simp [stepped] at reads
    | ok next =>
      simp only [stepped] at reads ⊢
      rw [ih reads, Text.size_cons, Nat.add_assoc]

end Stencil.Document
