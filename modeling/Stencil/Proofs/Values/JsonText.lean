import Stencil.Values.Basic
import Stencil.Proofs.Document.Nesting
import Stencil.Proofs.Json.Escape
import Stencil.Proofs.Json.Format

/-! JSON values as macro values. The text of a value is a document whose tree
mirrors the value: its objects, arrays, keys and whole numbers stand there as
they are written, each in its place. So whatever value a template puts in, the
reader finds what it expects, as long as it is not nested too deep. -/
namespace Stencil

open Document (Lexeme Node Phrase Denotes textOf)

namespace Json

/-! ### The tree of a value -/

/-- The tree of a number: a number without fraction and exponent is kept as written. -/
def Number.node (number : Number) : Node := if number.isWhole then .integer number.text else .other

namespace Value

mutual

/-- The tree of a value. An object keeps its members, and an array its items, in the
order in which they are written, and a key is kept with its escapes. -/
def node : Value → Node
  | .null | .boolean _ | .string _ => .other
  | .number value => value.node
  | .array items => .array (nodesOfItems items)
  | .object members => .object (nodesOfMembers members)

/-- The trees of the items of an array. -/
def nodesOfItems : List Value → List Node
  | [] => []
  | item :: items => item.node :: nodesOfItems items

/-- The escaped keys of the members of an object, with the trees of their values. -/
def nodesOfMembers : List (Text × Value) → List (Text × Node)
  | [] => []
  | (key, value) :: members => (escape key, value.node) :: nodesOfMembers members

end

mutual

/-- How deep objects and arrays are nested in a value. -/
def depth : Value → Nat
  | .null | .boolean _ | .number _ | .string _ => 0
  | .array items => depthOfItems items + 1
  | .object members => depthOfMembers members + 1

/-- How deep objects and arrays are nested in items. -/
def depthOfItems : List Value → Nat
  | [] => 0
  | item :: items => max item.depth (depthOfItems items)

/-- How deep objects and arrays are nested in members. -/
def depthOfMembers : List (Text × Value) → Nat
  | [] => 0
  | (_, value) :: members => max value.depth (depthOfMembers members)

end

theorem depth_numberNode (number : Number) : number.node.depth = 0 := by
  unfold Number.node
  split <;> rfl

mutual

/-- The tree is nested as deep as the value. -/
theorem depth_node (value : Value) : value.node.depth = value.depth := by
  cases value with
  | null | boolean | string => rw [node, Node.depth, depth]
  | number value => rw [node, depth_numberNode, depth]
  | array items => rw [node, Node.depth, depthOfItems_nodes, depth]
  | object members => rw [node, Node.depth, depthOfMembers_nodes, depth]

theorem depthOfItems_nodes (items : List Value) : Document.depthOfItems (nodesOfItems items) = depthOfItems items := by
  match items with
  | [] => rfl
  | item :: items => rw [nodesOfItems, Document.depthOfItems, depth_node, depthOfItems_nodes, depthOfItems]

theorem depthOfMembers_nodes (members : List (Text × Value)) :
    Document.depthOfMembers (nodesOfMembers members) = depthOfMembers members := by
  match members with
  | [] => rfl
  | (key, value) :: members =>
    rw [nodesOfMembers, Document.depthOfMembers, depth_node, depthOfMembers_nodes, depthOfMembers]

end

theorem depthOfItems_le_iff {items : List Value} {bound : Nat} :
    depthOfItems items ≤ bound ↔ ∀ item ∈ items, item.depth ≤ bound := by
  induction items with
  | nil => simp [depthOfItems]
  | cons item items ih => rw [depthOfItems, Nat.max_le, ih, List.forall_mem_cons]

theorem depthOfMembers_le_iff {members : List (Text × Value)} {bound : Nat} :
    depthOfMembers members ≤ bound ↔ ∀ member ∈ members, member.2.depth ≤ bound := by
  induction members with
  | nil => simp [depthOfMembers]
  | cons member members ih => rw [depthOfMembers, Nat.max_le, ih, List.forall_mem_cons]

theorem inherited_depth : Inherited fun level value => level + value.depth ≤ Json.depthLimit where
  scalar within reads := by
    cases isScalar_of_readScalar reads with
    | null | boolean | string | number => simpa [depth] using within
  array {level items} room inside := by
    have bounded : depthOfItems items ≤ Json.depthLimit - (level + 1) :=
      depthOfItems_le_iff.mpr fun item member => Nat.le_sub_of_add_le' (inside item member)
    rw [depth]
    omega
  object {level members} room inside := by
    have bounded : depthOfMembers members ≤ Json.depthLimit - (level + 1) :=
      depthOfMembers_le_iff.mpr fun member found => Nat.le_sub_of_add_le' (inside member found)
    rw [depth]
    omega

/-- The reader of JSON stops at values that are nested too deep. -/
theorem depth_le_of_parse {text : Text} {value : Value} (reads : Json.parse text = .ok value) :
    value.depth ≤ Json.depthLimit := by
  simpa using inherited_depth.parse reads

/-- A member is nested less deep than the object that it is in. -/
theorem depth_lt_of_lookup {text name : Text} {source value : Value} (reads : Json.parse text = .ok source)
    (present : source.members.lookup name = some value) : value.depth < Json.depthLimit := by
  obtain ⟨members, rfl, member⟩ := exists_object_of_lookup present
  have shallow := depthOfMembers_le_iff.mp (Nat.le_refl _) (name, value) member
  have whole := depth_le_of_parse reads
  rw [depth] at whole
  exact Nat.lt_of_le_of_lt shallow whole

/-! ### The lexemes of a value -/

/-- The rules make a part of a document of a text. -/
def IsText (part : Document.Part) (text : Text) : Prop := ∃ lexemes, Phrase part lexemes ∧ textOf lexemes = text

namespace IsText

variable {text more : Text} {item next : Node} {items : List Node} {members : List (Text × Node)}

theorem word (known : text ∈ Document.words) : IsText (.value .other) text :=
  ⟨[.word text], .word known, by simp [Lexeme.text]⟩

theorem alone (value : IsText (.value item) text) : IsText (.spaced item) text := by
  obtain ⟨lexemes, phrase, rfl⟩ := value
  exact ⟨lexemes, phrase.spaced_value, rfl⟩

theorem array (inside : IsText (.items items) text) : IsText (.value (.array items)) ('[' :: text ++ [']']) := by
  obtain ⟨lexemes, phrase, rfl⟩ := inside
  exact ⟨_, .array phrase, by simp [Lexeme.text]⟩

theorem object (inside : IsText (.members members) text) :
    IsText (.value (.object members)) ('\x7b' :: text ++ ['\x7d']) := by
  obtain ⟨lexemes, phrase, rfl⟩ := inside
  exact ⟨_, .object phrase, by simp [Lexeme.text]⟩

theorem lastItem (last : IsText (.spaced item) text) : IsText (.items [item]) text := by
  obtain ⟨lexemes, phrase, rfl⟩ := last
  exact ⟨lexemes, .lastItem phrase, rfl⟩

theorem nextItem (first : IsText (.spaced item) text) (others : IsText (.items (next :: items)) more) :
    IsText (.items (item :: next :: items)) (text ++ ',' :: more) := by
  obtain ⟨lexemes, phrase, rfl⟩ := first
  obtain ⟨later, phrases, rfl⟩ := others
  exact ⟨_, .nextItem phrase phrases, by simp [Lexeme.text]⟩

/-- A key is written as a string literal. -/
theorem member (key : Text) (value : IsText (.spaced item) text) :
    IsText (.member (escape key) item) (literal key ++ ':' :: text) := by
  obtain ⟨lexemes, phrase, rfl⟩ := value
  exact ⟨_, .member .nil (.quoted (contents_escape key)) .nil phrase, by simp [Lexeme.text, literal]⟩

theorem lastMember {key : Text} (last : IsText (.member key item) text) : IsText (.members [(key, item)]) text := by
  obtain ⟨lexemes, phrase, rfl⟩ := last
  exact ⟨lexemes, .lastMember phrase, rfl⟩

theorem nextMember {key : Text} {later : Text × Node} (first : IsText (.member key item) text)
    (others : IsText (.members (later :: members)) more) :
    IsText (.members ((key, item) :: later :: members)) (text ++ ',' :: more) := by
  obtain ⟨lexemes, phrase, rfl⟩ := first
  obtain ⟨_, phrases, rfl⟩ := others
  exact ⟨_, .nextMember phrase phrases, by simp [Lexeme.text]⟩

end IsText

/-- A number is an integer, or a number that is not kept. -/
theorem isText_number {number : Number} (inFormat : number.InFormat) : IsText (.value number.node) number.text := by
  rw [Number.node]
  cases number with
  | integer value =>
    obtain ⟨isWhole, isInteger⟩ := Number.isInteger_text value
    rw [if_pos isWhole]
    exact ⟨_, .integer isInteger, by simp [Lexeme.text]⟩
  | float negative magnitude =>
    obtain ⟨notWhole, isDecimal⟩ := Number.isDecimal_text inFormat
    rw [if_neg (by simp [notWhole])]
    exact ⟨_, .decimal isDecimal, by simp [Lexeme.text]⟩

mutual

/-- The text of a value is a document with the tree of the value. -/
theorem isText (value : Value) (inFormat : value.InFormat) : IsText (.value value.node) value.text := by
  match value with
  | .null => exact .word (by simp [text, Document.words])
  | .boolean true => exact .word (by simp [text, Document.words])
  | .boolean false => exact .word (by simp [text, Document.words])
  | .number value => exact isText_number inFormat
  | .string value => exact ⟨_, .string (contents_escape value), by simp [Lexeme.text, text, literal]⟩
  | .array [] => exact .array ⟨[], .noItems .nil, rfl⟩
  | .array (first :: rest) => exact (isText_items (isText first inFormat.1).alone rest inFormat.2).array
  | .object [] => exact .object ⟨[], .noMembers .nil, rfl⟩
  | .object ((key, first) :: rest) =>
    exact (isText_members ((isText first inFormat.1).alone.member key) rest inFormat.2).object

/-- The items after the first one follow behind commas. -/
theorem isText_items {first : Node} {text : Text} (isFirst : IsText (.spaced first) text) (rest : List Value)
    (inFormat : ItemsInFormat rest) : IsText (.items (first :: nodesOfItems rest)) (text ++ textOfItems rest) := by
  match rest with
  | [] => simpa [nodesOfItems, textOfItems] using isFirst.lastItem
  | item :: rest => exact isFirst.nextItem (isText_items (isText item inFormat.1).alone rest inFormat.2)

/-- The members after the first one follow behind commas. -/
theorem isText_members {key : Text} {first : Node} {text : Text} (isFirst : IsText (.member key first) text)
    (rest : List (Text × Value)) (inFormat : MembersInFormat rest) :
    IsText (.members ((key, first) :: nodesOfMembers rest)) (text ++ textOfMembers rest) := by
  match rest with
  | [] => simpa [nodesOfMembers, textOfMembers] using isFirst.lastMember
  | (name, value) :: rest =>
    exact isFirst.nextMember (isText_members ((isText value inFormat.1).alone.member name) rest inFormat.2)

end

/-- The text of a value is accepted up to the depth limit. -/
theorem parse_text_iff {value : Value} (inFormat : value.InFormat) :
    Document.parse value.text = .ok value.node ↔ value.depth ≤ Document.depthLimit := by
  rw [Document.parse_eq_ok_iff, value.depth_node]
  exact and_iff_right (value.isText inFormat).alone

end Value
end Json

/-! ### The renderings of members -/

theorem raw_of_lookup {source value : Json.Value} {name : Text} (present : source.members.lookup name = some value) :
    (Values.json source).renderings.raw name = some value.text := by
  simp [Values.renderings, Values.renderingsIn, Values.renderingsOfMembers, present]

/-- Inside of string literals every member is rendered as some escaped text. -/
theorem inString_of_lookup {source value : Json.Value} {name : Text}
    (present : source.members.lookup name = some value) :
    ∃ written, (Values.json source).renderings.inString name = some (Json.escape written) := by
  simp only [Values.renderings, Values.renderingsIn, Values.renderingsOfMembers, present, Option.map_some]
  cases value with
  | string text => exact ⟨text, rfl⟩
  | null | boolean | number | array | object => exact ⟨_, rfl⟩

/-- **JSON values are read as what they are.** The text that a member of a JSON
object is rendered as outside of string literals is a document with the tree of
the member, and it is accepted up to the depth limit. What it is rendered as
inside of string literals is accepted as the contents of one literal. -/
theorem json_renderings_mirror {source value : Json.Value} {name : Text}
    (present : source.members.lookup name = some value) (inFormat : value.InFormat) :
    (Values.json source).renderings.raw name = some value.text ∧
      (∃ lexemes, Denotes lexemes value.node ∧ textOf lexemes = value.text) ∧
      (Document.parse value.text = .ok value.node ↔ value.depth ≤ Document.depthLimit) ∧
      ∃ contents, (Values.json source).renderings.inString name = some contents ∧ Document.Contents contents ∧
        Denotes [.string contents] .other ∧ Document.parse ('"' :: contents ++ ['"']) = .ok .other := by
  have isText : Json.Value.IsText (.spaced value.node) value.text := (value.isText inFormat).alone
  obtain ⟨written, rendered⟩ := inString_of_lookup present
  have proper := Json.contents_escape written
  exact ⟨raw_of_lookup present, isText, Json.Value.parse_text_iff inFormat, Json.escape written, rendered, proper,
    (Phrase.string proper).spaced_value, Document.parse_literal proper⟩

/-- An array with a whole number, a fraction, and an object whose key needs escapes. -/
def nestedValue : Json.Value :=
  .array [.number (.integer (-3)), .number (.float false ⟨7036874417766400, -49⟩),
    .object [(['a', '"', '\n'], .string ['"']), (['b'], .array [])], .null]

/-- The tree of the nested value holds the whole number and the escaped key. -/
theorem parse_nestedValue : Document.parse nestedValue.text = .ok
    (.array [.integer ['-', '3'], .other,
      .object [(['a', '\\', '"', '\\', 'n'], .other), (['b'], .array [])], .other]) := by
  have inFormat : nestedValue.InFormat := by
    simp [nestedValue, Json.Value.InFormat, Json.Value.ItemsInFormat, Json.Value.MembersInFormat, Json.Number.InFormat,
      Magnitude.minExponent]
  have fraction : (Json.Number.float false ⟨7036874417766400, -49⟩).isWhole = false :=
    (Json.Number.isDecimal_text inFormat.2.1).1
  have whole := (Json.Number.isInteger_text (-3)).1
  have present : (Json.Value.object [(['m'], nestedValue)]).members.lookup ['m'] = some nestedValue := rfl
  obtain ⟨_, _, parses, _⟩ := json_renderings_mirror present inFormat
  have tree : nestedValue.node = .array [.integer ['-', '3'], .other,
      .object [(['a', '\\', '"', '\\', 'n'], .other), (['b'], .array [])], .other] := by
    simp [nestedValue, Json.Value.node, Json.Value.nodesOfItems, Json.Value.nodesOfMembers, Json.Number.node, fraction,
      whole, Json.escape, Json.escapeChar]
    decide
  rw [← tree]
  exact parses.mpr (by decide)

/-- **The members of a JSON text are read as what they are,** without any condition:
the reader of JSON keeps no numbers but those of the format, and stops before values
are nested too deep for the reader of documents. -/
theorem parse_members_of_text {text name : Text} {source value : Json.Value} (reads : Json.parse text = .ok source)
    (present : source.members.lookup name = some value) :
    ∃ contents, (Values.json source).renderings.raw name = some value.text ∧
      Document.parse value.text = .ok value.node ∧
      (Values.json source).renderings.inString name = some contents ∧
      Document.parse ('"' :: contents ++ ['"']) = .ok .other := by
  obtain ⟨written, rendered⟩ := inString_of_lookup present
  have shallow : value.depth ≤ Document.depthLimit :=
    Nat.le_trans (Nat.le_of_lt (Json.Value.depth_lt_of_lookup reads present)) (by decide)
  exact ⟨Json.escape written, raw_of_lookup present,
    (Json.Value.parse_text_iff (Json.inFormat_of_lookup reads present)).mpr shallow, rendered,
    Document.parse_literal (Json.contents_escape written)⟩

end Stencil
