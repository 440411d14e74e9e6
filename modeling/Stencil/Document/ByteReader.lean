import Stencil.Document.Reader
import Stencil.Text.Bytes

/-! The reader of documents in the bytes of a text. It goes down into objects
and arrays by calls, moves a finger from byte to byte, and slices the text for
what it keeps. What can go wrong on the way is told: a slice that would break a
character, a level too many, a loop that gets no further. -/

namespace Stencil.Document.ByteReader

/-! ### Courses -/

/-- Why the reader halts. -/
inductive Halt where
  /-- The text is no document. -/
  | rejected (error : SyntaxError)
  /-- The text would be sliced backwards, beyond its end or inside of a character. -/
  | brokenSlice (start stop : Nat)
  /-- The number of levels that may still be opened would fall below zero. -/
  | negativeLevels
  /-- A turn of a loop that began at this finger left it there, or brought it out
  of the text, and the loop would go on. -/
  | endless (finger : Nat)
deriving DecidableEq

/-- What the reader does on the way. -/
inductive Event where
  /-- The finger is put to a byte offset. -/
  | moved (finger : Nat)
  /-- A value is begun. So many values are being read now, this one inside of all others. -/
  | called (level : Nat)
  /-- The part of the text between two byte offsets is taken. -/
  | sliced (start stop : Nat)
deriving DecidableEq

/-- What a part of the reader does, in order, and what comes of it. -/
structure Course (α : Type) where
  events : List Event
  outcome : Except Halt α

namespace Course

/-- Nothing is done. -/
def done {α : Type} (value : α) : Course α := ⟨[], .ok value⟩

/-- The reader halts here. -/
def halt {α : Type} (halt : Halt) : Course α := ⟨[], .error halt⟩

/-- One course after the other, unless the reader halts in the first. -/
def andThen {α β : Type} (first : Course α) (second : α → Course β) : Course β :=
  match first.outcome with
  | .error halt => ⟨first.events, .error halt⟩
  | .ok value => ⟨first.events ++ (second value).events, (second value).outcome⟩

instance : Monad Course where
  pure := done
  bind := andThen

end Course

variable (text : Text)

/-- Puts the finger to a byte offset. -/
def moveTo (finger : Nat) : Course Nat := ⟨[.moved finger], .ok finger⟩

/-- Begins a value. -/
def call (level : Nat) : Course Unit := ⟨[.called level], .ok ()⟩

/-- The part of the text between two byte offsets. -/
def slice (start stop : Nat) : Course Text :=
  match (Text.cut? text stop).bind fun (front, _) => Text.cut? front start with
  | some (_, part) => ⟨[.sliced start stop], .ok part⟩
  | none => .halt (.brokenSlice start stop)

/-- Whether there is a byte of some kind at the finger. -/
def sees (finger : Nat) (kind : UInt8 → Bool) : Bool := text.bytes[finger]?.any kind

/-- Rejects the text at the finger. -/
def unexpected {α : Type} (expected : Expectation) (finger : Nat) : Course α := do
  let rest ← slice text finger (Text.size text)
  .halt (.rejected ⟨finger, rest.head?, expected⟩)

/-- How a turn of a loop ends. -/
inductive Turn (σ β : Type) where
  | again (state : σ)
  | last (result : β)

/-- Repeats a turn until it is the last one. -/
def loop {σ β : Type} (turn : σ → Nat → Course (Turn σ β × Nat)) (state : σ) (finger : Nat) :
    Course (β × Nat) := do
  match ← turn state finger with
  | (.last result, next) => return (result, next)
  | (.again state, next) =>
    if finger < next ∧ next ≤ Text.size text then loop turn state next else .halt (.endless finger)
termination_by Text.size text - finger

/-! ### Kinds of bytes -/

/-- The byte of a character that has only one. -/
def is (character : Char) (byte : UInt8) : Bool := byte = character.toUInt8

/-- The bytes of the characters from one to another, which have only one each. -/
def within (low high : Char) (byte : UInt8) : Bool := low.toUInt8 ≤ byte && byte ≤ high.toUInt8

/-- The bytes that may stand between tokens. -/
def isBlank (byte : UInt8) : Bool := is ' ' byte || is '\t' byte || is '\n' byte || is '\r' byte

def isDigit (byte : UInt8) : Bool := within '0' '9' byte

def isHexDigit (byte : UInt8) : Bool := isDigit byte || within 'a' 'f' byte || within 'A' 'F' byte

/-- The bytes that a string literal cannot hold as they are, apart from the quote and the backslash. -/
def isControl (byte : UInt8) : Bool := byte < 0x20

/-- The bytes of the characters outside of ASCII. -/
def isBeyondAscii (byte : UInt8) : Bool := 0x80 ≤ byte

/-- The bytes of unquoted keys. Those of characters outside of ASCII are taken one by one. -/
def isKeyByte (byte : UInt8) : Bool :=
  within 'A' 'Z' byte || within 'a' 'z' byte || isDigit byte || is '_' byte || is '$' byte ||
    isBeyondAscii byte

/-- The bytes that make an escape sequence with the backslash alone. -/
def isShortEscape (byte : UInt8) : Bool :=
  is '"' byte || is '\\' byte || is '/' byte || is 'b' byte || is 'f' byte || is 'n' byte || is 'r' byte ||
    is 't' byte

/-! ### Tokens -/

/-- One byte of some kind is skipped, or the skipping ends. -/
def skipTurn (kind : UInt8 → Bool) (_ : Unit) (finger : Nat) : Course (Turn Unit Unit × Nat) := do
  if sees text finger kind then return (.again (), ← moveTo (finger + 1))
  else return (.last (), finger)

/-- Skips bytes of some kind. -/
def skip (kind : UInt8 → Bool) (finger : Nat) : Course Nat := do
  let (_, finger) ← loop text (skipTurn text kind) () finger
  return finger

/-- Takes the byte of a character after blanks. -/
def expect (character : Char) (expected : Expectation) (finger : Nat) : Course Nat := do
  let finger ← skip text isBlank finger
  if sees text finger (is character) then moveTo (finger + 1)
  else unexpected text expected finger

/-- Takes so many hexadecimal digits. -/
def hexDigits : (count finger : Nat) → Course Nat
  | 0, finger => return finger
  | count + 1, finger => do
    if sees text finger isHexDigit then
      let finger ← moveTo (finger + 1)
      hexDigits count finger
    else unexpected text .hexDigit finger

/-- Takes the part of an escape sequence after the backslash. -/
def escape (finger : Nat) : Course Nat := do
  if sees text finger isShortEscape then moveTo (finger + 1)
  else if sees text finger (is 'u') then
    let finger ← moveTo (finger + 1)
    hexDigits text 4 finger
  else unexpected text .escape finger

/-- One byte or one escape sequence of a string literal, or its closing quote. -/
def stringTurn (start : Nat) (_ : Unit) (finger : Nat) : Course (Turn Unit Text × Nat) := do
  match text.bytes[finger]? with
  | none => unexpected text .closingQuote finger
  | some byte =>
    if is '"' byte then
      let contents ← slice text start finger
      return (.last contents, ← moveTo (finger + 1))
    else if is '\\' byte then
      let finger ← moveTo (finger + 1)
      let finger ← escape text finger
      return (.again (), finger)
    else if isControl byte then unexpected text .closingQuoteOrEscape finger
    else return (.again (), ← moveTo (finger + 1))

/-- Reads a string literal from its opening quote on; its contents are kept as written. -/
def string (finger : Nat) : Course (Text × Nat) := do
  let start ← moveTo (finger + 1)
  loop text (stringTurn text start) () start

/-- Reads a key, with or without quotes. -/
def key (finger : Nat) : Course (Text × Nat) := do
  if sees text finger (is '"') then string text finger
  else if sees text finger isKeyByte then
    let start := finger
    let finger ← skip text isKeyByte finger
    return (← slice text start finger, finger)
  else unexpected text .key finger

/-- Takes digits, of which there must be some. -/
def digits (finger : Nat) : Course Nat := do
  if sees text finger isDigit then skip text isDigit finger
  else unexpected text .digit finger

/-- Takes the minus of a number, if there is one. -/
def minus (finger : Nat) : Course Nat := do
  if sees text finger (is '-') then moveTo (finger + 1) else return finger

/-- Takes the whole part of a number. -/
def whole (finger : Nat) : Course Nat := do
  if sees text finger (is '0') then moveTo (finger + 1)
  else if sees text finger isDigit then skip text isDigit finger
  else unexpected text .digit finger

/-- Takes the fraction of a number, and tells whether there is one. -/
def fraction (finger : Nat) : Course (Bool × Nat) := do
  if sees text finger (is '.') then
    let finger ← moveTo (finger + 1)
    return (true, ← digits text finger)
  else return (false, finger)

/-- Takes the sign of an exponent, if there is one. -/
def exponentSign (finger : Nat) : Course Nat := do
  if sees text finger fun byte => is '+' byte || is '-' byte then moveTo (finger + 1) else return finger

/-- Takes the exponent of a number, and tells whether there is one. -/
def exponent (finger : Nat) : Course (Bool × Nat) := do
  if sees text finger fun byte => is 'e' byte || is 'E' byte then
    let finger ← moveTo (finger + 1)
    let finger ← exponentSign text finger
    return (true, ← digits text finger)
  else return (false, finger)

/-- Reads a number. -/
def number (finger : Nat) : Course (Node × Nat) := do
  let start := finger
  let finger ← minus text finger
  let finger ← whole text finger
  let (fractional, finger) ← fraction text finger
  let (scaled, finger) ← exponent text finger
  if fractional || scaled then return (.other, finger)
  else return (.integer (← slice text start finger), finger)

/-- Reads one of the words. -/
def word (letters : Text) (finger : Nat) : Course (Node × Nat) := do
  let rest ← slice text finger (Text.size text)
  if (Text.after? letters rest).isSome then return (.other, ← moveTo (finger + Text.size letters))
  else unexpected text .value finger

/-! ### Values -/

/-- What follows a member or an item after blanks: a comma, with which the container goes on, or
the bracket that closes it. -/
def follow {σ : Type} (closing : Char) (expected : Expectation) (sofar : σ) (closed : Node) (finger : Nat) :
    Course (Turn σ Node × Nat) := do
  let finger ← skip text isBlank finger
  if sees text finger (is ',') then return (.again sofar, ← moveTo (finger + 1))
  else if sees text finger (is closing) then return (.last closed, ← moveTo (finger + 1))
  else unexpected text expected finger

/-- One member of an object and what follows it, given how the values in the object are read. -/
def memberTurn (readValue : Nat → Course (Node × Nat)) (members : List (Text × Node)) (finger : Nat) :
    Course (Turn (List (Text × Node)) Node × Nat) := do
  let finger ← skip text isBlank finger
  let (key, finger) ← key text finger
  let finger ← expect text ':' .colon finger
  let (value, finger) ← readValue finger
  let members := members ++ [(key, value)]
  follow text '\x7d' .commaOrBrace members (.object members) finger

/-- Reads an object from its opening brace on. -/
def object (readValue : Nat → Course (Node × Nat)) (finger : Nat) : Course (Node × Nat) := do
  let finger ← moveTo (finger + 1)
  let finger ← skip text isBlank finger
  if sees text finger (is '\x7d') then return (.object [], ← moveTo (finger + 1))
  else loop text (memberTurn text readValue) [] finger

/-- One item of an array and what follows it, given how the values in the array are read. -/
def itemTurn (readValue : Nat → Course (Node × Nat)) (items : List Node) (finger : Nat) :
    Course (Turn (List Node) Node × Nat) := do
  let (item, finger) ← readValue finger
  let items := items ++ [item]
  follow text ']' .commaOrBracket items (.array items) finger

/-- Reads an array from its opening bracket on. -/
def array (readValue : Nat → Course (Node × Nat)) (finger : Nat) : Course (Node × Nat) := do
  let finger ← moveTo (finger + 1)
  let finger ← skip text isBlank finger
  if sees text finger (is ']') then return (.array [], ← moveTo (finger + 1))
  else loop text (itemTurn text readValue) [] finger

/-- Reads a value in which so many levels may still be opened. -/
def value (depth level finger : Nat) : Course (Node × Nat) := do
  call level
  let finger ← skip text isBlank finger
  if (sees text finger (is '\x7b') || sees text finger (is '[')) && depth = 0 then
    unexpected text .shallowerData finger
  else if sees text finger (is '\x7b') then
    match depth with
    | 0 => .halt .negativeLevels
    | depth + 1 => object text (value depth (level + 1)) finger
  else if sees text finger (is '[') then
    match depth with
    | 0 => .halt .negativeLevels
    | depth + 1 => array text (value depth (level + 1)) finger
  else if sees text finger (is '"') then
    let (_, finger) ← string text finger
    return (.other, finger)
  else if sees text finger fun byte => is '-' byte || isDigit byte then number text finger
  else if sees text finger (is 't') then word text ['t', 'r', 'u', 'e'] finger
  else if sees text finger (is 'f') then word text ['f', 'a', 'l', 's', 'e'] finger
  else if sees text finger (is 'n') then word text ['n', 'u', 'l', 'l'] finger
  else unexpected text .value finger

/-- Reads a text as a document. -/
def parse : Course Node := do
  let (root, finger) ← value text depthLimit 1 0
  let finger ← skip text isBlank finger
  if finger < Text.size text then unexpected text .endOfInput finger else return root

end Stencil.Document.ByteReader
