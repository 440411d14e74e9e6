import Mathlib.Data.List.Induction
import Stencil.Template.Expansion
import Stencil.Proofs.Document.Completeness
import Stencil.Proofs.Json.Escape
import Stencil.Proofs.Template.Cells
import Stencil.Proofs.Template.Classification

/-! Expansion preserves the structure of a document. The rendering of a value
takes up no more of the document than the code of its occurrence: a value stays
a value, a key stays a key, and contents of a string stay between the quotes.
So the expanded text denotes the tree of the encoded document in which the keys
and integers that hold codes are replaced, and nothing else. -/
namespace Stencil

open Document (Lexeme Contents IsKey Node Part Phrase Blanks Denotes textOf)

/-! ### Trees with replaced keys and integers -/

/-- What a key or an integer of a document becomes. -/
inductive Replacement where
  | integer (text : Text) (node : Node)
  | key (text new : Text)

/-- The key or integer that is replaced. -/
def Replacement.token : Replacement → Document.Token
  | .integer text _ => .integer text
  | .key text _ => .key text

/-- A part of a document before and after its keys and integers are replaced,
in the order in which they stand. -/
inductive Replaced : List Replacement → Part → Part → Prop where
  | integer {text : Text} {node : Node} :
      Replaced [.integer text node] (.value (.integer text)) (.value node)
  | other : Replaced [] (.value .other) (.value .other)
  | array {replacements : List Replacement} {old new : List Node}
      (within : Replaced replacements (.items old) (.items new)) :
      Replaced replacements (.value (.array old)) (.value (.array new))
  | object {replacements : List Replacement} {old new : List (Text × Node)}
      (within : Replaced replacements (.members old) (.members new)) :
      Replaced replacements (.value (.object old)) (.value (.object new))
  | noItems : Replaced [] (.items []) (.items [])
  | nextItem {front back : List Replacement} {item item' : Node} {rest rest' : List Node}
      (first : Replaced front (.value item) (.value item')) (others : Replaced back (.items rest) (.items rest')) :
      Replaced (front ++ back) (.items (item :: rest)) (.items (item' :: rest'))
  | member {replacements : List Replacement} {key key' : Text} {node node' : Node}
      (inner : Replaced replacements (.value node) (.value node')) :
      Replaced (.key key key' :: replacements) (.member key node) (.member key' node')
  | noMembers : Replaced [] (.members []) (.members [])
  | nextMember {front back : List Replacement} {key key' : Text} {node node' : Node}
      {rest rest' : List (Text × Node)} (first : Replaced front (.member key node) (.member key' node'))
      (others : Replaced back (.members rest) (.members rest')) :
      Replaced (front ++ back) (.members ((key, node) :: rest)) (.members ((key', node') :: rest'))

/-- There is one replacement for each key and integer of the part, in order. -/
theorem Replaced.tokens {replacements : List Replacement} {old new : Part}
    (replaced : Replaced replacements old new) : replacements.map Replacement.token = old.tokens := by
  induction replaced with
  | integer | other | noItems | noMembers => rfl
  | array _ ih | object _ ih => exact ih
  | member _ ih => rw [List.map_cons, ih]; rfl
  | nextItem _ _ first others | nextMember _ _ first others => rw [List.map_append, first, others]; rfl

theorem Replaced.items_cons {replacements : List Replacement} {item : Node} {rest new : List Node}
    (replaced : Replaced replacements (.items (item :: rest)) (.items new)) : ∃ next others, new = next :: others := by
  cases replaced
  exact ⟨_, _, rfl⟩

theorem Replaced.members_cons {replacements : List Replacement} {member : Text × Node}
    {rest new : List (Text × Node)} (replaced : Replaced replacements (.members (member :: rest)) (.members new)) :
    ∃ next others, new = next :: others := by
  cases replaced
  exact ⟨_, _, rfl⟩

/-- The replacements determine the new tree. -/
theorem Replaced.unique {replacements : List Replacement} {old new other : Part}
    (replaced : Replaced replacements old new) (replaced' : Replaced replacements old other) : new = other := by
  have parts {front back front' back' : List Replacement} {part new new' : Part}
      (first : Replaced front part new) (first' : Replaced front' part new')
      (same : front ++ back = front' ++ back') : front = front' ∧ back = back' := by
    refine List.append_inj same ?_
    have counts := congrArg List.length (first.tokens.trans first'.tokens.symm)
    simpa using counts
  suffices agree : ∀ {list : List Replacement} {other : Part}, Replaced list old other → list = replacements →
      new = other from agree replaced' rfl
  clear replaced' other
  induction replaced with
  | integer =>
    intro list other replaced' same
    cases replaced'
    cases same
    rfl
  | other | noItems | noMembers =>
    intro list other replaced' _
    cases replaced'
    rfl
  | array _ ih =>
    intro list other replaced' same
    cases replaced' with
    | array within => cases ih within same; rfl
  | object _ ih =>
    intro list other replaced' same
    cases replaced' with
    | object within => cases ih within same; rfl
  | member _ ih =>
    intro list other replaced' same
    cases replaced' with
    | member inner =>
      obtain ⟨same, rest⟩ := List.cons.inj same
      cases ih inner rest
      cases same
      rfl
  | nextItem first _ ihFirst ihOthers =>
    intro list other replaced' same
    cases replaced' with
    | nextItem first' others' =>
      obtain ⟨front_eq, back_eq⟩ := parts first' first same
      cases ihFirst first' front_eq
      cases ihOthers others' back_eq
      rfl
  | nextMember first _ ihFirst ihOthers =>
    intro list other replaced' same
    cases replaced' with
    | nextMember first' others' =>
      obtain ⟨front_eq, back_eq⟩ := parts first' first same
      cases ihFirst first' front_eq
      cases ihOthers others' back_eq
      rfl

/-! ### Renderings in cells -/

/-- The rendering of an occurrence, or nothing when there is none. -/
def Occurrence.rendering (values : Renderings) (found : Occurrence) : Text :=
  (values.get? found.context found.name).getD []

/-- The key that a text is, when it is a whole key: what stands between the quotes if there are any. -/
def keyContents : Text → Text
  | '"' :: rest => rest.dropLast
  | text => text

theorem keyContents_text {key : Text} {name : Lexeme} (isKey : IsKey key name) : keyContents name.text = key := by
  cases isKey with
  | quoted proper => simp [Lexeme.text, keyContents]
  | bare nonempty characters =>
    cases key with
    | nil => exact absurd rfl nonempty
    | cons first rest =>
      have noQuote : first ≠ '"' := by
        rintro rfl
        exact Bool.noConfusion (characters '"' (by simp))
      simp [Lexeme.text, keyContents, noQuote]

namespace Cell

/-- What the key or the integer in a cell becomes, when there are suitable renderings. -/
def replacement? (values : Renderings) : Cell → Option Replacement
  | .plain lexeme =>
    match lexeme.token? with
    | some (.integer text) => some (.integer text (.integer text))
    | some (.key text) => some (.key text text)
    | none => none
  | .value found =>
    match (values.raw found.name).map Document.parse with
    | some (.ok node) => some (.integer found.code.digits node)
    | _ => none
  | .key found => (values.raw found.name).map fun text => .key found.code.digits (keyContents text)
  | .string _ => none
  | .quotedKey inner =>
    some (.key (filledOf Occurrence.encoded inner) (filledOf (Occurrence.rendering values) inner))

/-- Values that suit a cell: a document for a value, a whole key for a key, and
escaped text between quotes. -/
def Suits (values : Renderings) : Cell → Prop
  | .plain _ => True
  | .value found => ∃ text node, values.raw found.name = some text ∧ Document.parse text = .ok node
  | .key found => ∃ key name, values.raw found.name = some (Lexeme.text name) ∧ IsKey key name
  | .string inner | .quotedKey inner =>
    ∀ found, .occurrence found ∈ inner → ∃ text, values.inString found.name = some (Json.escape text)

/-- The lexemes that no occurrence can be a part of. -/
def isInert : Lexeme → Bool
  | .blank _ | .mark _ | .decimal _ | .word _ => true
  | .integer _ | .string _ | .bareKey _ | .quotedKey _ => false

/-- The text of cells with the renderings of the values. -/
def rendered (values : Renderings) (cells : List Cell) : Text :=
  filledOf (Occurrence.rendering values) (cells.flatMap Cell.marks)

@[simp] theorem rendered_nil (values : Renderings) : rendered values [] = [] := rfl

@[simp] theorem rendered_cons (values : Renderings) (cell : Cell) (rest : List Cell) :
    rendered values (cell :: rest) = filledOf (Occurrence.rendering values) cell.marks ++ rendered values rest := by
  simp [rendered]

@[simp] theorem rendered_append (values : Renderings) (front back : List Cell) :
    rendered values (front ++ back) = rendered values front ++ rendered values back := by
  simp [rendered]

/-- A lexeme that cannot hold an occurrence is literal text. -/
theorem eq_plain {cell : Cell} {lexeme : Lexeme} (encoded : cell.encoded = lexeme) (inert : isInert lexeme = true) :
    cell = .plain lexeme := by
  cases cell with
  | plain lexeme => exact congrArg Cell.plain encoded
  | value | key | string | quotedKey =>
    subst encoded
    cases inert

/-- Blanks stay as they are. -/
theorem blanks_unchanged (values : Renderings) {cells : List Cell} {blanks : List Lexeme}
    (encoded : cells.map Cell.encoded = blanks) (only : Blanks blanks) :
    rendered values cells = textOf blanks ∧ cells.filterMap (replacement? values) = [] := by
  induction cells generalizing blanks with
  | nil => exact encoded ▸ ⟨rfl, rfl⟩
  | cons cell rest ih =>
    subst encoded
    obtain ⟨character, isBlank, _⟩ := only cell.encoded (by simp)
    obtain ⟨rest_eq, none⟩ := ih rfl fun lexeme member => only lexeme (by simp at member ⊢; exact .inr member)
    obtain rfl := eq_plain isBlank rfl
    constructor
    · rw [rendered_cons, rest_eq, Cell.marks, filledOf_characters]
      rfl
    · rw [List.filterMap_cons, none]
      rfl

/-- Between quotes, renderings take the place of codes without disturbing what is around them. -/
theorem contents_rendered {values : Renderings} {inner : List Mark} (between : Between inner)
    (suits : ∀ found, .occurrence found ∈ inner → ∃ text, values.inString found.name = some (Json.escape text))
    (proper : Contents (filledOf Occurrence.encoded inner)) :
    Contents (filledOf (Occurrence.rendering values) inner) := by
  have same : ∀ front back, inner = front ++ back →
      Document.readQuoted .plain (filledOf Occurrence.encoded front) =
        Document.readQuoted .plain (filledOf (Occurrence.rendering values) front) := by
    intro front
    induction front using List.reverseRecOn with
    | nil => exact fun _ _ => rfl
    | append_singleton front mark ih =>
      intro back split
      have earlier := ih (mark :: back) (by simp [split])
      rw [filledOf_append, filledOf_append, Document.readQuoted_append, Document.readQuoted_append, ← earlier]
      cases mark with
      | character char => rfl
      | occurrence found =>
        obtain ⟨isString, whole⟩ := between front found back (by simp [split])
        obtain ⟨text, rendering⟩ := suits found (by simp [split])
        have escaped : found.rendering values = Json.escape text := by
          simp [Occurrence.rendering, isString, Renderings.get?, rendering]
        simp only [whole.readQuoted, Option.bind_some, filledOf_cons, filledOf_nil, List.append_nil,
          Mark.filled, Occurrence.encoded, escaped]
        rw [(contents_digits found.code).readQuoted, (Json.contents_escape text).readQuoted]
  have closes := same inner [] (by simp)
  rw [proper.readQuoted] at closes
  exact Document.completes_of_readQuoted closes.symm

end Cell

/-! ### Phrases with renderings -/

/-- What a part of the encoded document becomes: a part of the same kind, with
the keys and integers replaced, that has the given text. A rendering may have
blanks around its value. -/
def Spliced (replacements : List Replacement) (text : Text) : Part → Prop
  | .value node | .spaced node => ∃ new lexemes, Replaced replacements (.value node) (.value new) ∧
    Phrase (.spaced new) lexemes ∧ textOf lexemes = text
  | .items inner => ∃ new lexemes, Replaced replacements (.items inner) (.items new) ∧
    Phrase (.items new) lexemes ∧ textOf lexemes = text
  | .member key node => ∃ newKey new lexemes, Replaced replacements (.member key node) (.member newKey new) ∧
    Phrase (.member newKey new) lexemes ∧ textOf lexemes = text
  | .members inner => ∃ new lexemes, Replaced replacements (.members inner) (.members new) ∧
    Phrase (.members new) lexemes ∧ textOf lexemes = text

variable {values : Renderings} {cell : Cell} {cells : List Cell}

/-- What the cells of a part become, if the part is a phrase of their lexemes. -/
def SplicedCells (values : Renderings) (cells : List Cell) (part : Part) : Prop :=
  Spliced (cells.filterMap (Cell.replacement? values)) (Cell.rendered values cells) part

private theorem spliced_string {contents : Text} (encoded : cell.encoded = .string contents)
    (proper : Contents contents) (sound : cell.Sound) (suits : cell.Suits values) :
    SplicedCells values [cell] (.value .other) := by
  cases cell with
  | plain lexeme =>
    obtain rfl : lexeme = .string contents := encoded
    exact ⟨.other, [.string contents], .other, (Phrase.string proper).spaced_value, by simp [Cell.marks]⟩
  | string inner =>
    obtain rfl := Lexeme.string.inj encoded
    have contents := Cell.contents_rendered sound suits proper
    exact ⟨.other, [.string _], .other, (Phrase.string contents).spaced_value,
      by simp [Cell.marks, Lexeme.text, Mark.filled]⟩
  | value | key | quotedKey => cases encoded

private theorem spliced_integer {text : Text} (encoded : cell.encoded = .integer text)
    (number : Document.IsInteger text) (sound : cell.Sound) (suits : cell.Suits values) :
    SplicedCells values [cell] (.value (.integer text)) := by
  cases cell with
  | plain lexeme =>
    obtain rfl : lexeme = .integer text := encoded
    exact ⟨.integer text, [.integer text], .integer, (Phrase.integer number).spaced_value, by simp [Cell.marks]⟩
  | value found =>
    obtain rfl := Lexeme.integer.inj encoded
    obtain ⟨text, node, rendering, parsed⟩ := suits
    obtain ⟨lexemes, denotes, text_eq⟩ := Document.denotes_of_parse parsed
    have isRaw : found.context = .raw := sound
    refine ⟨node, lexemes, ?_, denotes, ?_⟩
    · simpa [Cell.replacement?, rendering, parsed] using Replaced.integer
    · simp [Cell.marks, Mark.filled, Occurrence.rendering, isRaw, Renderings.get?, rendering, text_eq]
  | key | string | quotedKey => cases encoded

private theorem spliced_plain {lexeme : Lexeme} (encoded : cell.encoded = lexeme)
    (inert : Cell.isInert lexeme = true) (phrase : Phrase (.value .other) [lexeme]) : SplicedCells values [cell] (.value .other) := by
  obtain rfl := Cell.eq_plain encoded inert
  refine ⟨.other, [lexeme], ?_, phrase.spaced_value, by simp [Cell.marks]⟩
  cases lexeme with
  | blank | mark | decimal | word => exact .other
  | integer | string | bareKey | quotedKey => cases inert

private theorem spliced_key {key : Text} {name : Lexeme} (encoded : cell.encoded = name) (isKey : IsKey key name)
    (sound : cell.Sound) (suits : cell.Suits values) :
    ∃ newKey newName, cell.replacement? values = some (.key key newKey) ∧ IsKey newKey newName ∧
      filledOf (Occurrence.rendering values) cell.marks = newName.text := by
  cases cell with
  | plain lexeme =>
    obtain rfl : lexeme = name := encoded
    refine ⟨key, lexeme, ?_, isKey, by simp [Cell.marks]⟩
    simp [Cell.replacement?, isKey.token]
  | key found =>
    subst encoded
    cases isKey with
    | bare =>
      obtain ⟨newKey, newName, rendering, isNewKey⟩ := suits
      have isRaw : found.context = .raw := sound
      refine ⟨newKey, newName, ?_, isNewKey, ?_⟩
      · simp [Cell.replacement?, rendering, keyContents_text isNewKey]
      · simp [Cell.marks, Mark.filled, Occurrence.rendering, isRaw, Renderings.get?, rendering]
  | quotedKey inner =>
    subst encoded
    cases isKey with
    | quoted proper =>
      have contents := Cell.contents_rendered sound suits proper
      exact ⟨_, .quotedKey _, rfl, .quoted contents, by simp [Cell.marks, Lexeme.text, Mark.filled]⟩
  | value | string =>
    subst encoded
    cases isKey

private theorem mark_unchanged (values : Renderings) {character : Char} (encoded : cell.encoded = .mark character) (rest : List Cell) :
    Cell.rendered values (cell :: rest) = character :: Cell.rendered values rest ∧
      (cell :: rest).filterMap (Cell.replacement? values) = rest.filterMap (Cell.replacement? values) := by
  obtain rfl := Cell.eq_plain encoded rfl
  exact ⟨by simp [Cell.marks, Lexeme.text, Mark.filled], rfl⟩

private theorem enclosed_unchanged (values : Renderings) {inside : List Lexeme} {first last : Char}
    (encoded : cells.map Cell.encoded = .mark first :: inside ++ [.mark last]) :
    ∃ inner : List Cell, inner ⊆ cells ∧ inner.map Cell.encoded = inside ∧
      Cell.rendered values cells = first :: Cell.rendered values inner ++ [last] ∧
      cells.filterMap (Cell.replacement? values) = inner.filterMap (Cell.replacement? values) := by
  obtain ⟨front, closing, rfl, front_eq, closing_eq⟩ := List.map_eq_append_iff.mp encoded
  obtain ⟨opening, inner, rfl, opening_eq, inner_eq⟩ := List.map_eq_cons_iff.mp front_eq
  obtain ⟨closing, rfl, last_eq⟩ := List.map_eq_singleton_iff.mp closing_eq
  obtain ⟨opens, noneBefore⟩ := mark_unchanged values opening_eq inner
  obtain ⟨closes, noneAfter⟩ := mark_unchanged values last_eq []
  refine ⟨inner, by simp, inner_eq, ?_, ?_⟩
  · rw [Cell.rendered_append, opens, closes, Cell.rendered_nil]
  · rw [List.filterMap_append, noneBefore, noneAfter, List.filterMap_nil, List.append_nil]

private theorem joined_unchanged (values : Renderings) {front back : List Lexeme} {character : Char}
    (encoded : cells.map Cell.encoded = front ++ .mark character :: back) :
    ∃ first second : List Cell, first ⊆ cells ∧ second ⊆ cells ∧ first.map Cell.encoded = front ∧
      second.map Cell.encoded = back ∧
      Cell.rendered values cells = Cell.rendered values first ++ character :: Cell.rendered values second ∧
      cells.filterMap (Cell.replacement? values) =
        first.filterMap (Cell.replacement? values) ++ second.filterMap (Cell.replacement? values) := by
  obtain ⟨first, rest, rfl, first_eq, rest_eq⟩ := List.map_eq_append_iff.mp encoded
  obtain ⟨mark, second, rfl, mark_eq, second_eq⟩ := List.map_eq_cons_iff.mp rest_eq
  obtain ⟨joins, none⟩ := mark_unchanged values mark_eq second
  refine ⟨first, second, by simp, ?_, first_eq, second_eq, ?_, ?_⟩
  · exact fun cell member => by simp [member]
  · rw [Cell.rendered_append, joins]
  · rw [List.filterMap_append, none]

theorem Document.Phrase.spaced_blanks {node : Node} {before lexemes after : List Lexeme} (front : Blanks before)
    (inner : Phrase (.spaced node) lexemes) (back : Blanks after) :
    Phrase (.spaced node) (before ++ lexemes ++ after) := by
  cases inner with
  | spaced front' value back' => simpa using Phrase.spaced (front.append front') value (back'.append back)

private theorem spliced_spaced {node : Node} {before value after : List Lexeme} (front : Blanks before)
    (back : Blanks after) (encoded : cells.map Cell.encoded = before ++ value ++ after)
    (inner : ∀ inner : List Cell, inner ⊆ cells → inner.map Cell.encoded = value →
      SplicedCells values inner (.value node)) : SplicedCells values cells (.spaced node) := by
  obtain ⟨rest, trailing, rfl, rest_eq, trailing_eq⟩ := List.map_eq_append_iff.mp encoded
  obtain ⟨leading, middle, rfl, leading_eq, middle_eq⟩ := List.map_eq_append_iff.mp rest_eq
  obtain ⟨leadingText, noneBefore⟩ := Cell.blanks_unchanged values leading_eq front
  obtain ⟨trailingText, noneAfter⟩ := Cell.blanks_unchanged values trailing_eq back
  obtain ⟨new, lexemes, replaced, phrase, text_eq⟩ := inner middle
    (fun cell member => by simp [member]) middle_eq
  refine ⟨new, before ++ lexemes ++ after, ?_, phrase.spaced_blanks front back, ?_⟩
  · simpa [noneBefore, noneAfter] using replaced
  · simp [leadingText, trailingText, text_eq]

private theorem spliced_member {key : Text} {node : Node} {before between value : List Lexeme} {name : Lexeme}
    (front : Blanks before) (isKey : IsKey key name) (middle : Blanks between)
    (encoded : cells.map Cell.encoded = before ++ name :: between ++ .mark ':' :: value)
    (suited : ∀ cell ∈ cells, cell.Sound ∧ cell.Suits values)
    (inner : ∀ inner : List Cell, inner ⊆ cells → inner.map Cell.encoded = value →
      SplicedCells values inner (.spaced node)) : SplicedCells values cells (.member key node) := by
  obtain ⟨first, second, firstIn, secondIn, first_eq, second_eq, text, replacements⟩ :=
    joined_unchanged values encoded
  obtain ⟨leading, rest, rfl, leading_eq, rest_eq⟩ := List.map_eq_append_iff.mp first_eq
  obtain ⟨cell, blanks, rfl, cell_eq, blanks_eq⟩ := List.map_eq_cons_iff.mp rest_eq
  obtain ⟨sound, suits⟩ := suited cell (firstIn (by simp))
  obtain ⟨leadingText, noneBefore⟩ := Cell.blanks_unchanged values leading_eq front
  obtain ⟨blanksText, noneAfter⟩ := Cell.blanks_unchanged values blanks_eq middle
  obtain ⟨newKey, newName, replacement, isNewKey, keyText⟩ := spliced_key cell_eq isKey sound suits
  obtain ⟨new, lexemes, replaced, phrase, text_eq⟩ := inner second secondIn second_eq
  refine ⟨newKey, new, before ++ newName :: between ++ .mark ':' :: lexemes, ?_, .member front isNewKey middle phrase, ?_⟩
  · rw [replacements]
    simpa [noneBefore, noneAfter, replacement] using Replaced.member replaced
  · rw [text]
    simp [leadingText, blanksText, keyText, text_eq, Lexeme.text]

/-- **A phrase with suitable renderings in its cells is a phrase of the same kind**,
which denotes the same part with its keys and integers replaced. -/
theorem splicedCells_of_phrase {part : Part} {lexemes : List Lexeme} (phrase : Phrase part lexemes)
    (cells : List Cell) (encoded : cells.map Cell.encoded = lexemes)
    (suited : ∀ cell ∈ cells, cell.Sound ∧ cell.Suits values) : SplicedCells values cells part := by
  induction phrase generalizing cells with
  | string proper =>
    obtain ⟨cell, rfl, cell_eq⟩ := List.map_eq_singleton_iff.mp encoded
    obtain ⟨sound, suits⟩ := suited cell (by simp)
    exact spliced_string cell_eq proper sound suits
  | integer number =>
    obtain ⟨cell, rfl, cell_eq⟩ := List.map_eq_singleton_iff.mp encoded
    obtain ⟨sound, suits⟩ := suited cell (by simp)
    exact spliced_integer cell_eq number sound suits
  | decimal number =>
    obtain ⟨cell, rfl, cell_eq⟩ := List.map_eq_singleton_iff.mp encoded
    exact spliced_plain cell_eq rfl (.decimal number)
  | word known =>
    obtain ⟨cell, rfl, cell_eq⟩ := List.map_eq_singleton_iff.mp encoded
    exact spliced_plain cell_eq rfl (.word known)
  | array _ ih =>
    obtain ⟨inner, innerIn, inner_eq, text, replacements⟩ := enclosed_unchanged values encoded
    obtain ⟨new, lexemes, replaced, phrase, text_eq⟩ := ih inner inner_eq fun cell member => suited cell (innerIn member)
    refine ⟨.array new, _, ?_, (Phrase.array phrase).spaced_value, ?_⟩
    · rw [replacements]
      exact .array replaced
    · rw [text]
      simp [text_eq, Lexeme.text]
  | object _ ih =>
    obtain ⟨inner, innerIn, inner_eq, text, replacements⟩ := enclosed_unchanged values encoded
    obtain ⟨new, lexemes, replaced, phrase, text_eq⟩ := ih inner inner_eq fun cell member => suited cell (innerIn member)
    refine ⟨.object new, _, ?_, (Phrase.object phrase).spaced_value, ?_⟩
    · rw [replacements]
      exact .object replaced
    · rw [text]
      simp [text_eq, Lexeme.text]
  | spaced front _ back ih =>
    exact spliced_spaced front back encoded fun inner innerIn inner_eq =>
      ih inner inner_eq fun cell member => suited cell (innerIn member)
  | noItems only =>
    obtain ⟨text, none⟩ := Cell.blanks_unchanged values encoded only
    exact ⟨[], _, by rw [none]; exact .noItems, .noItems only, text.symm⟩
  | lastItem _ ih =>
    obtain ⟨new, lexemes, replaced, phrase, text_eq⟩ := ih cells encoded suited
    exact ⟨[new], lexemes, by simpa using Replaced.nextItem replaced .noItems, .lastItem phrase, text_eq⟩
  | nextItem _ _ first others =>
    obtain ⟨front, back, frontIn, backIn, front_eq, back_eq, text, replacements⟩ :=
      joined_unchanged values encoded
    obtain ⟨new, lexemes, replaced, phrase, text_eq⟩ :=
      first front front_eq fun cell member => suited cell (frontIn member)
    obtain ⟨rest, lexemes', replaced', phrase', text_eq'⟩ :=
      others back back_eq fun cell member => suited cell (backIn member)
    obtain ⟨next, others, rfl⟩ := replaced'.items_cons
    refine ⟨new :: next :: others, lexemes ++ .mark ',' :: lexemes', ?_, .nextItem phrase phrase', ?_⟩
    · rw [replacements]
      exact .nextItem replaced replaced'
    · rw [text]
      simp [text_eq, text_eq', Lexeme.text]
  | member front isKey middle _ ih =>
    exact spliced_member front isKey middle encoded suited fun inner innerIn inner_eq =>
      ih inner inner_eq fun cell member => suited cell (innerIn member)
  | noMembers only =>
    obtain ⟨text, none⟩ := Cell.blanks_unchanged values encoded only
    exact ⟨[], _, by rw [none]; exact .noMembers, .noMembers only, text.symm⟩
  | lastMember _ ih =>
    obtain ⟨newKey, new, lexemes, replaced, phrase, text_eq⟩ := ih cells encoded suited
    exact ⟨[(newKey, new)], lexemes, by simpa using Replaced.nextMember replaced .noMembers, .lastMember phrase, text_eq⟩
  | nextMember _ _ first others =>
    obtain ⟨front, back, frontIn, backIn, front_eq, back_eq, text, replacements⟩ :=
      joined_unchanged values encoded
    obtain ⟨newKey, new, lexemes, replaced, phrase, text_eq⟩ :=
      first front front_eq fun cell member => suited cell (frontIn member)
    obtain ⟨rest, lexemes', replaced', phrase', text_eq'⟩ :=
      others back back_eq fun cell member => suited cell (backIn member)
    obtain ⟨next, others, rfl⟩ := replaced'.members_cons
    refine ⟨(newKey, new) :: next :: others, lexemes ++ .mark ',' :: lexemes', ?_, .nextMember phrase phrase', ?_⟩
    · rw [replacements]
      exact .nextMember replaced replaced'
    · rw [text]
      simp [text_eq, text_eq', Lexeme.text]

end Stencil
