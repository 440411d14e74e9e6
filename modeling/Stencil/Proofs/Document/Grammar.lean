import Stencil.Document.Token
import Stencil.Text.CharClass

/-! The grammar of relaxed documents, independent of the reader: strict JSON in
which a key may also be a run of key characters without quotes. A document is
a sequence of lexemes, the smallest pieces that mean something by themselves,
and the rules say which sequences denote which tree. Where a lexeme stands in
the sequence tells which part of the text it is. -/
namespace Stencil.Document

/-- What may stand between the quotes of a string literal: characters other
than quotes, backslashes and control characters, and whole escape sequences. -/
inductive Contents : Text → Prop where
  | nil : Contents []
  | plain {character : Char} {rest : Text} (noQuote : character ≠ '"') (noBackslash : character ≠ '\\')
      (noControl : ¬ character.toNat < 0x20) (after : Contents rest) : Contents (character :: rest)
  | short {character : Char} {rest : Text} (escape : isShortEscape character = true)
      (after : Contents rest) : Contents ('\\' :: character :: rest)
  | unicode {first second third fourth : Char} {rest : Text} (one : Text.isHexDigit first = true)
      (two : Text.isHexDigit second = true) (three : Text.isHexDigit third = true)
      (four : Text.isHexDigit fourth = true) (after : Contents rest) :
      Contents ('\\' :: 'u' :: first :: second :: third :: fourth :: rest)

/-- A run of at least one decimal digit. -/
def Digits (text : Text) : Prop := text ≠ [] ∧ ∀ character ∈ text, character.isDigit = true

/-- A whole number without sign: zero, or digits that do not begin with zero. -/
inductive Whole : Text → Prop where
  | zero : Whole ['0']
  | positive {first : Char} {rest : Text} (digit : first.isDigit = true) (notZero : first ≠ '0')
      (digits : ∀ character ∈ rest, character.isDigit = true) : Whole (first :: rest)

/-- A whole number, perhaps with a minus sign. -/
inductive IsInteger : Text → Prop where
  | unsigned {whole : Text} (number : Whole whole) : IsInteger whole
  | signed {whole : Text} (number : Whole whole) : IsInteger ('-' :: whole)

/-- A point and the digits after it. -/
inductive IsFraction : Text → Prop where
  | digits {digits : Text} (run : Digits digits) : IsFraction ('.' :: digits)

/-- A mark of the exponent, perhaps a sign, and digits. -/
inductive IsExponent : Text → Prop where
  | unsigned {mark : Char} {digits : Text} (isMark : mark = 'e' ∨ mark = 'E') (run : Digits digits) :
      IsExponent (mark :: digits)
  | signed {mark sign : Char} {digits : Text} (isMark : mark = 'e' ∨ mark = 'E')
      (isSign : sign = '+' ∨ sign = '-') (run : Digits digits) : IsExponent (mark :: sign :: digits)

/-- A number that is not written as an integer. -/
inductive IsDecimal : Text → Prop where
  | fraction {integer fraction : Text} (front : IsInteger integer) (back : IsFraction fraction) :
      IsDecimal (integer ++ fraction)
  | exponent {integer exponent : Text} (front : IsInteger integer) (back : IsExponent exponent) :
      IsDecimal (integer ++ exponent)
  | both {integer fraction exponent : Text} (front : IsInteger integer) (middle : IsFraction fraction)
      (back : IsExponent exponent) : IsDecimal (integer ++ fraction ++ exponent)

/-- The words that are values. -/
def words : List Text := [['t', 'r', 'u', 'e'], ['f', 'a', 'l', 's', 'e'], ['n', 'u', 'l', 'l']]

/-- The smallest meaningful pieces of a document, as written. -/
inductive Lexeme where
  /-- One character between tokens. -/
  | blank (character : Char)
  /-- A bracket, a brace, a colon or a comma. -/
  | mark (character : Char)
  | integer (text : Text)
  | decimal (text : Text)
  | word (text : Text)
  /-- A string literal that is a value, by what stands between its quotes. -/
  | string (contents : Text)
  | bareKey (text : Text)
  /-- A quoted key, by what stands between its quotes. -/
  | quotedKey (contents : Text)
deriving DecidableEq, Repr

namespace Lexeme

/-- The text that a lexeme covers. -/
def text : Lexeme → Text
  | .blank character | .mark character => [character]
  | .integer text | .decimal text | .word text | .bareKey text => text
  | .string contents | .quotedKey contents => '"' :: contents ++ ['"']

/-- The key or integer that a lexeme is. -/
def token? : Lexeme → Option Token
  | .integer text => some (.integer text)
  | .bareKey text | .quotedKey text => some (.key text)
  | .blank _ | .mark _ | .decimal _ | .word _ | .string _ => none

end Lexeme

/-- The text of lexemes one after the other. -/
def textOf (lexemes : List Lexeme) : Text := lexemes.flatMap Lexeme.text

@[simp] theorem textOf_nil : textOf [] = [] := rfl

@[simp] theorem textOf_cons (lexeme : Lexeme) (rest : List Lexeme) :
    textOf (lexeme :: rest) = lexeme.text ++ textOf rest := rfl

@[simp] theorem textOf_append (front back : List Lexeme) :
    textOf (front ++ back) = textOf front ++ textOf back := by simp [textOf]

/-- Nothing but blanks. -/
def Blanks (lexemes : List Lexeme) : Prop :=
  ∀ lexeme ∈ lexemes, ∃ character, lexeme = .blank character ∧ Text.isBlank character = true

/-- How a key can be written. -/
inductive IsKey : Text → Lexeme → Prop where
  | bare {text : Text} (nonempty : text ≠ [])
      (characters : ∀ character ∈ text, isKeyCharacter character = true) : IsKey text (.bareKey text)
  | quoted {contents : Text} (proper : Contents contents) : IsKey contents (.quotedKey contents)

/-- The parts of a document that the rules are about, by what they denote. -/
inductive Part where
  | value (node : Node)
  /-- A value with blanks on both sides. -/
  | spaced (node : Node)
  /-- What stands between the brackets of an array. -/
  | items (items : List Node)
  | member (key : Text) (node : Node)
  /-- What stands between the braces of an object. -/
  | members (members : List (Text × Node))

/-- The rules of the grammar. -/
inductive Phrase : Part → List Lexeme → Prop where
  | string {contents : Text} (proper : Contents contents) : Phrase (.value .other) [.string contents]
  | integer {text : Text} (number : IsInteger text) : Phrase (.value (.integer text)) [.integer text]
  | decimal {text : Text} (number : IsDecimal text) : Phrase (.value .other) [.decimal text]
  | word {text : Text} (known : text ∈ words) : Phrase (.value .other) [.word text]
  | array {items : List Node} {inside : List Lexeme} (within : Phrase (.items items) inside) :
      Phrase (.value (.array items)) (.mark '[' :: inside ++ [.mark ']'])
  | object {members : List (Text × Node)} {inside : List Lexeme} (within : Phrase (.members members) inside) :
      Phrase (.value (.object members)) (.mark '\x7b' :: inside ++ [.mark '\x7d'])
  | spaced {node : Node} {before value after : List Lexeme} (front : Blanks before)
      (inner : Phrase (.value node) value) (back : Blanks after) :
      Phrase (.spaced node) (before ++ value ++ after)
  | noItems {blanks : List Lexeme} (only : Blanks blanks) : Phrase (.items []) blanks
  | lastItem {item : Node} {inside : List Lexeme} (last : Phrase (.spaced item) inside) :
      Phrase (.items [item]) inside
  | nextItem {item next : Node} {items : List Node} {inside more : List Lexeme}
      (first : Phrase (.spaced item) inside) (others : Phrase (.items (next :: items)) more) :
      Phrase (.items (item :: next :: items)) (inside ++ .mark ',' :: more)
  | member {key : Text} {node : Node} {before between value : List Lexeme} {name : Lexeme}
      (front : Blanks before) (isKey : IsKey key name) (middle : Blanks between)
      (back : Phrase (.spaced node) value) :
      Phrase (.member key node) (before ++ name :: between ++ .mark ':' :: value)
  | noMembers {blanks : List Lexeme} (only : Blanks blanks) : Phrase (.members []) blanks
  | lastMember {key : Text} {node : Node} {inside : List Lexeme} (last : Phrase (.member key node) inside) :
      Phrase (.members [(key, node)]) inside
  | nextMember {key : Text} {node : Node} {next : Text × Node} {members : List (Text × Node)}
      {inside more : List Lexeme} (first : Phrase (.member key node) inside)
      (others : Phrase (.members (next :: members)) more) :
      Phrase (.members ((key, node) :: next :: members)) (inside ++ .mark ',' :: more)

/-- The lexemes of a whole document that denotes a tree. -/
def Denotes (lexemes : List Lexeme) (root : Node) : Prop := Phrase (.spaced root) lexemes

mutual

/-- How deep objects and arrays are nested in a value. -/
def Node.depth : Node → Nat
  | .object members => depthOfMembers members + 1
  | .array items => depthOfItems items + 1
  | .integer _ | .other => 0

/-- How deep objects and arrays are nested in members. -/
def depthOfMembers : List (Text × Node) → Nat
  | [] => 0
  | (_, value) :: members => max value.depth (depthOfMembers members)

/-- How deep objects and arrays are nested in items. -/
def depthOfItems : List Node → Nat
  | [] => 0
  | item :: items => max item.depth (depthOfItems items)

end

/-- The keys and integers of a part, in the order in which they stand. -/
def Part.tokens : Part → List Token
  | .value node | .spaced node => node.tokens
  | .items inner => tokensOfItems inner
  | .member key node => .key key :: node.tokens
  | .members inner => tokensOfMembers inner

theorem Blanks.nil : Blanks [] := by simp [Blanks]

theorem Blanks.append {front back : List Lexeme} (first : Blanks front) (second : Blanks back) :
    Blanks (front ++ back) := by
  intro lexeme member
  rcases List.mem_append.mp member with inFront | inBack
  · exact first lexeme inFront
  · exact second lexeme inBack

theorem Blanks.singleton {character : Char} (blank : Text.isBlank character = true) :
    Blanks [.blank character] := by simp [Blanks, blank]

theorem Blanks.tokens {blanks : List Lexeme} (only : Blanks blanks) : blanks.filterMap Lexeme.token? = [] := by
  rw [List.filterMap_eq_nil_iff]
  intro lexeme member
  obtain ⟨character, rfl, _⟩ := only lexeme member
  rfl

/-- A value needs no blanks around it. -/
theorem Phrase.spaced_value {node : Node} {lexemes : List Lexeme} (inner : Phrase (.value node) lexemes) :
    Phrase (.spaced node) lexemes := by
  simpa using Phrase.spaced .nil inner .nil

theorem Contents.append {front back : Text} (first : Contents front) (second : Contents back) :
    Contents (front ++ back) := by
  induction first with
  | nil => exact second
  | plain noQuote noBackslash noControl _ ih => exact .plain noQuote noBackslash noControl ih
  | short escape _ ih => exact .short escape ih
  | unicode one two three four _ ih => exact .unicode one two three four ih

theorem isDigit_ne {digit other : Char} (isDigit : digit.isDigit = true) (notDigit : other.isDigit = false) :
    digit ≠ other := by
  rintro rfl
  rw [notDigit] at isDigit
  cases isDigit

/-- Digits stand for themselves in a literal. -/
theorem contents_of_digits {text : Text} (digits : ∀ character ∈ text, character.isDigit = true) :
    Contents text := by
  induction text with
  | nil => exact .nil
  | cons character rest ih =>
    have isDigit := digits character (by simp)
    have later := ih fun digit member => digits digit (by simp [member])
    refine .plain (isDigit_ne isDigit rfl) (isDigit_ne isDigit rfl) ?_ later
    simp only [Char.isDigit, Bool.and_eq_true, decide_eq_true_eq] at isDigit
    have atLeast : 48 ≤ character.toNat := UInt32.le_iff_toNat_le.mp isDigit.1
    omega

@[simp] theorem tokens_mark_cons (character : Char) (rest : List Lexeme) :
    (Lexeme.mark character :: rest).filterMap Lexeme.token? = rest.filterMap Lexeme.token? := rfl

theorem IsKey.token {key : Text} {name : Lexeme} (isKey : IsKey key name) : name.token? = some (.key key) := by
  cases isKey <;> rfl

/-- Nothing is lost and nothing is added between the text and the tree: the
keys and integers of the tree are those among the lexemes, in their order. -/
theorem Phrase.tokens {part : Part} {lexemes : List Lexeme} (phrase : Phrase part lexemes) :
    part.tokens = lexemes.filterMap Lexeme.token? := by
  induction phrase with
  | string | integer | decimal | word => rfl
  | array _ ih | object _ ih =>
    rw [List.cons_append, tokens_mark_cons, List.filterMap_append, ← ih]
    simp [Part.tokens, Node.tokens]
  | spaced front _ back ih =>
    simp only [List.filterMap_append, front.tokens, back.tokens, List.nil_append, List.append_nil]
    exact ih
  | noItems only | noMembers only => exact only.tokens.symm
  | lastItem _ ih => simpa [Part.tokens, tokensOfItems] using ih
  | nextItem _ _ first others =>
    rw [List.filterMap_append, tokens_mark_cons, ← first, ← others]
    rfl
  | member front isKey middle _ ih =>
    have name := isKey.token
    rw [List.filterMap_append, List.filterMap_append, front.tokens, tokens_mark_cons, ← ih]
    simp [name, middle.tokens, Part.tokens]
  | lastMember _ ih => simpa [Part.tokens, tokensOfMembers] using ih
  | nextMember _ _ first others =>
    rw [List.filterMap_append, tokens_mark_cons, ← first, ← others]
    rfl

end Stencil.Document
