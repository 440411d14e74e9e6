import Stencil.Proofs.Document.Nesting

/-! Strict JSON, as the rules of the standard say it on the text itself. The
documents of the relaxed grammar whose keys are all quoted are the texts of
strict JSON, so the reader differs from a strict one in unquoted keys and in the
depth limit only. -/
namespace Stencil.Document

/-! ### The rules of strict JSON -/

/-- The constructs that the rules are about. -/
inductive Construct where
  | value
  /-- A value with blanks on both sides. -/
  | element
  /-- One or more elements with commas between them. -/
  | elements
  | member
  /-- One or more members with commas between them. -/
  | members
deriving DecidableEq, Repr

/-- Nothing but space, tab, line feed and carriage return. -/
def BlankText (text : Text) : Prop := ∀ character ∈ text, Text.isBlank character = true

/-- The texts of strict JSON. The number says how deep objects and arrays are nested. -/
inductive Strict : Construct → Nat → Text → Prop where
  | string {contents : Text} (proper : Contents contents) : Strict .value 0 ('"' :: contents ++ ['"'])
  | integer {text : Text} (number : IsInteger text) : Strict .value 0 text
  | decimal {text : Text} (number : IsDecimal text) : Strict .value 0 text
  | word {text : Text} (known : text ∈ words) : Strict .value 0 text
  | emptyArray {blanks : Text} (only : BlankText blanks) : Strict .value 1 ('[' :: blanks ++ [']'])
  | array {depth : Nat} {inside : Text} (within : Strict .elements depth inside) :
      Strict .value (depth + 1) ('[' :: inside ++ [']'])
  | emptyObject {blanks : Text} (only : BlankText blanks) : Strict .value 1 ('\x7b' :: blanks ++ ['\x7d'])
  | object {depth : Nat} {inside : Text} (within : Strict .members depth inside) :
      Strict .value (depth + 1) ('\x7b' :: inside ++ ['\x7d'])
  | element {depth : Nat} {before value after : Text} (front : BlankText before)
      (inner : Strict .value depth value) (back : BlankText after) :
      Strict .element depth (before ++ value ++ after)
  | lastElement {depth : Nat} {text : Text} (last : Strict .element depth text) : Strict .elements depth text
  | nextElement {depth deep : Nat} {text more : Text} (first : Strict .element depth text)
      (others : Strict .elements deep more) : Strict .elements (max depth deep) (text ++ ',' :: more)
  | member {depth : Nat} {before key between value : Text} (front : BlankText before) (proper : Contents key)
      (middle : BlankText between) (back : Strict .element depth value) :
      Strict .member depth (before ++ ('"' :: key ++ ['"']) ++ between ++ ':' :: value)
  | lastMember {depth : Nat} {text : Text} (last : Strict .member depth text) : Strict .members depth text
  | nextMember {depth deep : Nat} {text more : Text} (first : Strict .member depth text)
      (others : Strict .members deep more) : Strict .members (max depth deep) (text ++ ',' :: more)

/-! ### Strict texts and documents with quoted keys -/

/-- No key stands without quotes. -/
def AllQuoted (lexemes : List Lexeme) : Prop := ∀ lexeme ∈ lexemes, ∀ key, lexeme ≠ .bareKey key

@[simp] theorem AllQuoted.nil : AllQuoted [] := by simp [AllQuoted]

@[simp] theorem allQuoted_cons {lexeme : Lexeme} {rest : List Lexeme} :
    AllQuoted (lexeme :: rest) ↔ (∀ key, lexeme ≠ .bareKey key) ∧ AllQuoted rest := by
  simp [AllQuoted]

@[simp] theorem allQuoted_append {front back : List Lexeme} :
    AllQuoted (front ++ back) ↔ AllQuoted front ∧ AllQuoted back := by
  simp only [AllQuoted, List.forall_mem_append]

theorem Blanks.blankText {blanks : List Lexeme} (only : Blanks blanks) : BlankText (textOf blanks) := by
  intro character member
  obtain ⟨lexeme, isBlank, inText⟩ := List.mem_flatMap.mp member
  obtain ⟨found, rfl, blank⟩ := only lexeme isBlank
  obtain rfl := List.mem_singleton.mp inText
  exact blank

/-- The blanks of a text, as lexemes. -/
theorem BlankText.lexemes {text : Text} (only : BlankText text) :
    ∃ blanks, Blanks blanks ∧ AllQuoted blanks ∧ textOf blanks = text := by
  induction text with
  | nil => exact ⟨[], .nil, .nil, rfl⟩
  | cons character rest ih =>
    have blank := only character (by simp)
    obtain ⟨blanks, later, quoted, text_eq⟩ := ih fun next member => only next (by simp [member])
    refine ⟨.blank character :: blanks, (Blanks.singleton blank).append later, by simpa using quoted, ?_⟩
    rw [textOf_cons, text_eq]
    rfl

/-- What a part of a document with quoted keys is in strict JSON. -/
def Part.IsStrict : Part → Text → Prop
  | .value node, text => Strict .value node.depth text
  | .spaced node, text => Strict .element node.depth text
  | .items [], text => BlankText text
  | .items (first :: rest), text => Strict .elements (depthOfItems (first :: rest)) text
  | .member _ node, text => Strict .member node.depth text
  | .members [], text => BlankText text
  | .members (first :: rest), text => Strict .members (depthOfMembers (first :: rest)) text

/-- A phrase with quoted keys is strict JSON. -/
theorem Phrase.isStrict {part : Part} {lexemes : List Lexeme} (phrase : Phrase part lexemes)
    (quoted : AllQuoted lexemes) : part.IsStrict (textOf lexemes) := by
  induction phrase with
  | string proper => simpa [Part.IsStrict, Node.depth, Lexeme.text] using Strict.string proper
  | integer number => simpa [Part.IsStrict, Node.depth, Lexeme.text] using Strict.integer number
  | decimal number => simpa [Part.IsStrict, Node.depth, Lexeme.text] using Strict.decimal number
  | word known => simpa [Part.IsStrict, Node.depth, Lexeme.text] using Strict.word known
  | @array items inside _ ih =>
    have within := ih (by simpa using quoted)
    cases items with
    | nil => simpa [Part.IsStrict, Node.depth, depthOfItems, Lexeme.text] using Strict.emptyArray within
    | cons item items => simpa [Part.IsStrict, Node.depth, Lexeme.text] using Strict.array within
  | @object members inside _ ih =>
    have within := ih (by simpa using quoted)
    cases members with
    | nil => simpa [Part.IsStrict, Node.depth, depthOfMembers, Lexeme.text] using Strict.emptyObject within
    | cons member members => simpa [Part.IsStrict, Node.depth, Lexeme.text] using Strict.object within
  | spaced front _ back ih =>
    simp only [allQuoted_append] at quoted
    rw [textOf_append, textOf_append]
    exact Strict.element front.blankText (ih quoted.1.2) back.blankText
  | noItems only | noMembers only => exact only.blankText
  | lastItem _ ih =>
    rw [Part.IsStrict, depthOfItems, depthOfItems, Nat.max_zero]
    exact .lastElement (ih quoted)
  | nextItem _ _ ihFirst ihOthers =>
    simp only [allQuoted_append, allQuoted_cons] at quoted
    rw [Part.IsStrict, depthOfItems, textOf_append]
    exact .nextElement (ihFirst quoted.1) (ihOthers quoted.2.2)
  | member front isKey middle _ ih =>
    simp only [allQuoted_append, allQuoted_cons] at quoted
    cases isKey with
    | bare => exact absurd rfl (quoted.1.2.1 _)
    | quoted proper =>
      have strict := Strict.member front.blankText proper middle.blankText (ih quoted.2.2)
      simpa [Part.IsStrict, Lexeme.text] using strict
  | lastMember _ ih =>
    rw [Part.IsStrict, depthOfMembers, depthOfMembers, Nat.max_zero]
    exact .lastMember (ih quoted)
  | nextMember _ _ ihFirst ihOthers =>
    simp only [allQuoted_append, allQuoted_cons] at quoted
    rw [Part.IsStrict, depthOfMembers, textOf_append]
    exact .nextMember (ihFirst quoted.1) (ihOthers quoted.2.2)

/-- A text is a part of a document with quoted keys. -/
def Part.Covers (part : Part) (text : Text) : Prop :=
  ∃ lexemes, Phrase part lexemes ∧ AllQuoted lexemes ∧ textOf lexemes = text

/-- What a construct of strict JSON is in a document. -/
def Construct.IsPart : Construct → Nat → Text → Prop
  | .value, depth, text => ∃ node, Part.Covers (.value node) text ∧ node.depth = depth
  | .element, depth, text => ∃ node, Part.Covers (.spaced node) text ∧ node.depth = depth
  | .elements, depth, text => ∃ item items, Part.Covers (.items (item :: items)) text ∧
      depthOfItems (item :: items) = depth
  | .member, depth, text => ∃ key node, Part.Covers (.member key node) text ∧ node.depth = depth
  | .members, depth, text => ∃ member members, Part.Covers (.members (member :: members)) text ∧
      depthOfMembers (member :: members) = depth

/-- Strict JSON is a document with quoted keys. -/
theorem Strict.isPart {construct : Construct} {depth : Nat} {text : Text} (strict : Strict construct depth text) :
    construct.IsPart depth text := by
  induction strict with
  | string proper => exact ⟨.other, ⟨_, .string proper, by simp, by simp [Lexeme.text]⟩, rfl⟩
  | @integer text number => exact ⟨.integer text, ⟨_, .integer number, by simp, by simp [Lexeme.text]⟩, rfl⟩
  | decimal number => exact ⟨.other, ⟨_, .decimal number, by simp, by simp [Lexeme.text]⟩, rfl⟩
  | word known => exact ⟨.other, ⟨_, .word known, by simp, by simp [Lexeme.text]⟩, rfl⟩
  | emptyArray only =>
    obtain ⟨blanks, isBlank, quoted, rfl⟩ := only.lexemes
    exact ⟨.array [], ⟨_, .array (.noItems isBlank), by simpa using quoted, by simp [Lexeme.text]⟩, rfl⟩
  | array _ ih =>
    obtain ⟨item, items, ⟨inside, within, quoted, rfl⟩, rfl⟩ := ih
    exact ⟨.array (item :: items), ⟨_, .array within, by simpa using quoted, by simp [Lexeme.text]⟩, rfl⟩
  | emptyObject only =>
    obtain ⟨blanks, isBlank, quoted, rfl⟩ := only.lexemes
    exact ⟨.object [], ⟨_, .object (.noMembers isBlank), by simpa using quoted, by simp [Lexeme.text]⟩, rfl⟩
  | object _ ih =>
    obtain ⟨member, members, ⟨inside, within, quoted, rfl⟩, rfl⟩ := ih
    exact ⟨.object (member :: members), ⟨_, .object within, by simpa using quoted, by simp [Lexeme.text]⟩, rfl⟩
  | element front _ back ih =>
    obtain ⟨node, ⟨value, inner, quoted, rfl⟩, rfl⟩ := ih
    obtain ⟨before, isFront, quotedFront, rfl⟩ := front.lexemes
    obtain ⟨after, isBack, quotedBack, rfl⟩ := back.lexemes
    exact ⟨node, ⟨_, .spaced isFront inner isBack, by simp [quotedFront, quoted, quotedBack], by simp⟩, rfl⟩
  | lastElement _ ih =>
    obtain ⟨node, ⟨inside, last, quoted, rfl⟩, rfl⟩ := ih
    exact ⟨node, [], ⟨inside, .lastItem last, quoted, rfl⟩, by simp [depthOfItems]⟩
  | nextElement _ _ ihFirst ihOthers =>
    obtain ⟨node, ⟨inside, first, quoted, rfl⟩, rfl⟩ := ihFirst
    obtain ⟨item, items, ⟨more, others, quoted', rfl⟩, rfl⟩ := ihOthers
    exact ⟨node, item :: items, ⟨_, .nextItem first others, by simp [quoted, quoted'], by simp [Lexeme.text]⟩, rfl⟩
  | @member _ _ key _ _ front proper middle _ ih =>
    obtain ⟨node, ⟨value, inner, quoted, rfl⟩, rfl⟩ := ih
    obtain ⟨before, isFront, quotedFront, rfl⟩ := front.lexemes
    obtain ⟨between, isMiddle, quotedMiddle, rfl⟩ := middle.lexemes
    have phrase := Phrase.member isFront (.quoted proper) isMiddle inner
    exact ⟨key, node, ⟨_, phrase, by simp [quotedFront, quotedMiddle, quoted], by simp [Lexeme.text]⟩, rfl⟩
  | lastMember _ ih =>
    obtain ⟨key, node, ⟨inside, last, quoted, rfl⟩, rfl⟩ := ih
    exact ⟨(key, node), [], ⟨inside, .lastMember last, quoted, rfl⟩, by simp [depthOfMembers]⟩
  | nextMember _ _ ihFirst ihOthers =>
    obtain ⟨key, node, ⟨inside, first, quoted, rfl⟩, rfl⟩ := ihFirst
    obtain ⟨member, members, ⟨more, others, quoted', rfl⟩, rfl⟩ := ihOthers
    have phrase := Phrase.nextMember first others
    exact ⟨(key, node), member :: members, ⟨_, phrase, by simp [quoted, quoted'], by simp [Lexeme.text]⟩, rfl⟩

/-- A text is strict JSON if and only if it is a document whose keys are all quoted. -/
theorem strict_iff {depth : Nat} {text : Text} :
    Strict .element depth text ↔
      ∃ lexemes root, Denotes lexemes root ∧ AllQuoted lexemes ∧ textOf lexemes = text ∧ root.depth = depth := by
  constructor
  · intro strict
    obtain ⟨root, ⟨lexemes, denotes, quoted, text_eq⟩, depth_eq⟩ := strict.isPart
    exact ⟨lexemes, root, denotes, quoted, text_eq, depth_eq⟩
  · rintro ⟨lexemes, root, denotes, quoted, rfl, rfl⟩
    exact Phrase.isStrict denotes quoted

/-! ### What the reader accepts -/

/-- **The reader accepts exactly its grammar and builds the right tree.** A text
is read as a tree if and only if the grammar of relaxed documents makes that tree
of it and the tree is nested within the limit; and the grammar makes no other tree
of the text. So strict JSON within the limit is accepted, and an accepted document
whose keys are all quoted is strict JSON. -/
theorem parse_exact (text : Text) :
    (∀ root, parse text = .ok root ↔
      (∃ lexemes, Denotes lexemes root ∧ textOf lexemes = text) ∧ root.depth ≤ depthLimit) ∧
    (∀ root, parse text = .ok root → ∀ lexemes tree, Denotes lexemes tree → textOf lexemes = text → tree = root) ∧
    (∀ depth, Strict .element depth text → depth ≤ depthLimit →
      ∃ root, parse text = .ok root ∧ root.depth = depth) ∧
    ∀ root lexemes, parse text = .ok root → Denotes lexemes root → textOf lexemes = text → AllQuoted lexemes →
      Strict .element root.depth text := by
  refine ⟨fun root => parse_eq_ok_iff, ?_, ?_, ?_⟩
  · rintro root parsed lexemes tree denotes rfl
    exact denotes.root_eq parsed
  · intro depth strict shallow
    obtain ⟨lexemes, root, denotes, _, text_eq, rfl⟩ := strict_iff.mp strict
    exact ⟨root, parse_eq_ok_iff.mpr ⟨⟨lexemes, denotes, text_eq⟩, shallow⟩, rfl⟩
  · intro root lexemes _ denotes text_eq quoted
    exact strict_iff.mpr ⟨lexemes, root, denotes, quoted, text_eq, rfl⟩

end Stencil.Document
