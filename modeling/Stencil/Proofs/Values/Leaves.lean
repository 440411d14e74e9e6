import Stencil.Values.Basic
import Stencil.Proofs.Template.Acceptance

/-! The leaves of a source of values. However deep sources are put one behind
the other, a name has the value that the leftmost of the leaves with this name
gives it, in strings and elsewhere alike: a leaf looks a name up before it
renders anything, so no leaf has one rendering of a name without the other. -/
namespace Stencil

/-- A source of values that consists of no others. -/
inductive Leaf where
  /-- Values that are displayed. -/
  | display (text? : Text → Option Text)
  /-- The members of a JSON object. -/
  | members (table : List (Text × Json.Value))

namespace Leaf

/-- Whether a leaf has a value for a name. -/
def has (name : Text) : Leaf → Bool
  | .display text? => (text? name).isSome
  | .members table => (table.lookup name).isSome

/-- The renderings of the values of a leaf. -/
def renderings : Leaf → Renderings
  | .display text? => Renderings.ofDisplay text?
  | .members table => Values.renderingsOfMembers table

/-- What the two renderings of a name have to do with each other: what stands in
a string is the escaped form of what stands elsewhere, except that the text of a
JSON string, which is a literal elsewhere, is put into strings without its quotes. -/
def Corresponds (name : Text) : Leaf → (inString raw : Text) → Prop
  | .display _, inString, raw => inString = Json.escape raw
  | .members table, inString, raw =>
    match table.lookup name with
    | some (.string _) => raw = '"' :: inString ++ ['"']
    | _ => inString = Json.escape raw

/-- A leaf with a name has both renderings of it. -/
theorem exists_renderings {leaf : Leaf} {name : Text} (present : leaf.has name = true) :
    ∃ inString raw, leaf.renderings.inString name = some inString ∧ leaf.renderings.raw name = some raw ∧
      leaf.Corresponds name inString raw := by
  cases leaf with
  | display text? =>
    obtain ⟨text, value⟩ := Option.isSome_iff_exists.mp present
    refine ⟨Json.escape text, text, ?_, value, rfl⟩
    simp only [renderings, Renderings.ofDisplay, value, Option.map_some]
  | members table =>
    obtain ⟨value, entry⟩ := Option.isSome_iff_exists.mp present
    simp only [renderings, Values.renderingsOfMembers, Corresponds, entry, Option.map_some, Option.some.injEq]
    cases value with
    | string text => exact ⟨_, _, rfl, rfl, rfl⟩
    | null | boolean _ | number _ | array _ | object _ => exact ⟨_, _, rfl, rfl, rfl⟩

/-- A leaf without a name has no rendering of it. -/
theorem no_renderings {leaf : Leaf} {name : Text} (absent : ¬ leaf.has name = true) :
    leaf.renderings.inString name = none ∧ leaf.renderings.raw name = none := by
  cases leaf with
  | display text? =>
    have value : text? name = none := Option.not_isSome_iff_eq_none.mp absent
    simp [renderings, Renderings.ofDisplay, value]
  | members table =>
    have entry : table.lookup name = none := Option.not_isSome_iff_eq_none.mp absent
    simp [renderings, Values.renderingsOfMembers, entry]

end Leaf

namespace Values

variable {environment : Environment} {values base second : Values} {name : Text}

/-- The leaves of a source, in the order in which they are asked. -/
def leaves (environment : Environment) : Values → List Leaf
  | .none => [.display fun _ => .none]
  | .list items => [.display fun name => (items.lookup name).map Datum.display]
  | .table items => [.display fun name => (items.reverse.lookup name).map Datum.display]
  | .function value => [.display fun name => (value name).map Datum.display]
  | .environment _ => [.display environment.text?]
  | .json value => [.members value.members]
  | .fallback base second => base.leaves environment ++ second.leaves environment
  | .shared inner => inner.leaves environment

/-- The first leaf that has a name. -/
def leftmost? (environment : Environment) (values : Values) (name : Text) : Option Leaf :=
  (values.leaves environment).find? (Leaf.has name)

/-- The leftmost leaf of a source and a second one is that of the source, if it has one. -/
theorem leftmost?_fallback :
    (Values.fallback base second).leftmost? environment name =
      (base.leftmost? environment name).or (second.leftmost? environment name) :=
  List.find?_append

/-- The leftmost leaf with a name has the name. -/
theorem has_of_leftmost? {leaf : Leaf} (leftmost : values.leftmost? environment name = some leaf) :
    leaf.has name = true :=
  List.find?_some leftmost

/-- The second source is asked for what the first one does not have. -/
theorem get?_fallback {context : Context} :
    ((Values.fallback base second).renderingsIn environment).get? context name =
      ((base.renderingsIn environment).get? context name).or ((second.renderingsIn environment).get? context name) := by
  cases context <;> rfl

/-- The renderings of a name are those of the leftmost leaf that has it. -/
def AreLeftmost (environment : Environment) (values : Values) (name : Text) : Prop :=
  (values.renderingsIn environment).inString name =
      (values.leftmost? environment name).bind (fun leaf => leaf.renderings.inString name) ∧
    (values.renderingsIn environment).raw name =
      (values.leftmost? environment name).bind (fun leaf => leaf.renderings.raw name)

private theorem areLeftmost_leaf {leaf : Leaf} (only : values.leaves environment = [leaf])
    (same : values.renderingsIn environment = leaf.renderings) : values.AreLeftmost environment name := by
  rw [AreLeftmost, leftmost?, only, same]
  by_cases present : leaf.has name = true
  · simp [present]
  · simp [present, Leaf.no_renderings present]

private theorem areLeftmost_fallback (first : base.AreLeftmost environment name)
    (later : second.AreLeftmost environment name) : (Values.fallback base second).AreLeftmost environment name := by
  obtain ⟨inString, raw⟩ := first
  obtain ⟨inString', raw'⟩ := later
  rw [AreLeftmost, leftmost?_fallback]
  simp only [renderingsIn, inString, raw, inString', raw']
  cases leftmost : base.leftmost? environment name with
  | none => simp
  | some leaf =>
    obtain ⟨_, _, given, given', _⟩ := Leaf.exists_renderings (has_of_leftmost? leftmost)
    simp [given, given']

theorem areLeftmost (environment : Environment) (values : Values) (name : Text) :
    values.AreLeftmost environment name := by
  induction values with
  | none | list _ | table _ | function _ | environment _ | json _ => exact areLeftmost_leaf rfl rfl
  | shared inner ih => exact ih
  | fallback base second first later => exact areLeftmost_fallback first later

/-- Both renderings of a name are those of the leftmost leaf that has it, or there is neither. -/
theorem renderings_of_leftmost (environment : Environment) (values : Values) (name : Text) :
    (values.leftmost? environment name = .none ∧ (values.renderingsIn environment).inString name = .none ∧
      (values.renderingsIn environment).raw name = .none) ∨
    ∃ leaf inString raw, values.leftmost? environment name = some leaf ∧
      leaf.renderings.inString name = some inString ∧ leaf.renderings.raw name = some raw ∧
      leaf.Corresponds name inString raw ∧
      (values.renderingsIn environment).inString name = some inString ∧
      (values.renderingsIn environment).raw name = some raw := by
  obtain ⟨inString_eq, raw_eq⟩ := values.areLeftmost environment name
  cases leftmost : values.leftmost? environment name with
  | none => exact .inl ⟨rfl, by rw [inString_eq, leftmost]; rfl, by rw [raw_eq, leftmost]; rfl⟩
  | some leaf =>
    obtain ⟨inString, raw, given, given', corresponds⟩ := Leaf.exists_renderings (has_of_leftmost? leftmost)
    refine .inr ⟨leaf, inString, raw, rfl, given, given', corresponds, ?_, ?_⟩
    · rw [inString_eq, leftmost, Option.bind_some, given]
    · rw [raw_eq, leftmost, Option.bind_some, given']

end Values

/-! ### Expanding with values -/

variable {config : Config} {values other : Renderings} {segments : List Segment}

/-- An expansion that succeeds has a rendering for every occurrence. -/
theorem given_of_expandAll {text : Text} (expands : Segment.expandAll config values segments = .ok text) :
    ∀ found ∈ occurrencesOf segments, ∃ rendering, values.get? found.context found.name = some rendering := by
  induction segments generalizing text with
  | nil => simp [occurrencesOf]
  | cons segment rest ih =>
    rw [Segment.expandAll] at expands
    cases first : segment.expand config values with
    | error error => simp [first] at expands
    | ok front =>
      cases later : Segment.expandAll config values rest with
      | error error => simp [first, later, Except.map] at expands
      | ok back =>
        cases segment with
        | literal text => exact ih later
        | occurrence found =>
          intro other member
          rcases List.mem_cons.mp member with rfl | member
          · cases given : values.get? other.context other.name with
            | none => simp [Segment.expand, Occurrence.expand, given] at first
            | some rendering => exact ⟨rendering, rfl⟩
          · exact ih later other member

/-- Whether an expansion succeeds is a matter of the occurrences alone. -/
theorem expands_iff {template : Template} :
    (∃ text, template.expandToText values = .ok text) ↔
      ∀ found ∈ template.occurrences, ∃ rendering, values.get? found.context found.name = some rendering := by
  rw [Template.expandToText_eq, Template.expand]
  constructor
  · rintro ⟨text, expands⟩
    exact given_of_expandAll expands
  · intro given
    exact ⟨_, expandAll_eq_ok given⟩

/-- A template expands with a source of values if and only if some leaf has each of its names. -/
theorem expands_iff_leaves {template : Template} {environment : Environment} {source : Values} :
    (∃ text, template.expandToText (source.renderingsIn environment) = .ok text) ↔
      ∀ name ∈ template.occurrences.map Occurrence.name, source.leftmost? environment name ≠ none := by
  have given (context : Context) (name : Text) :
      (∃ rendering, (source.renderingsIn environment).get? context name = some rendering) ↔
        source.leftmost? environment name ≠ none := by
    rcases source.renderings_of_leftmost environment name with
      ⟨absent, inString, raw⟩ | ⟨leaf, _, _, present, _, _, _, inString, raw⟩
    · cases context <;> simp [Renderings.get?, absent, inString, raw]
    · cases context <;> simp [Renderings.get?, present, inString, raw]
  rw [expands_iff, List.forall_mem_map]
  exact forall₂_congr fun found _ => given found.context found.name

/-- Values that keep all renderings of others expand to the same text. -/
theorem expandAll_of_kept {text : Text} (expands : Segment.expandAll config values segments = .ok text)
    (kept : ∀ context name rendering, values.get? context name = some rendering →
      other.get? context name = some rendering) :
    Segment.expandAll config other segments = .ok text := by
  induction segments generalizing text with
  | nil => exact expands
  | cons segment rest ih =>
    rw [Segment.expandAll] at expands ⊢
    cases first : segment.expand config values with
    | error error => simp [first] at expands
    | ok front =>
      cases later : Segment.expandAll config values rest with
      | error error => simp [first, later, Except.map] at expands
      | ok back =>
        have same : segment.expand config other = .ok front := by
          cases segment with
          | literal text => exact first
          | occurrence found =>
            rw [Segment.expand, Occurrence.expand] at first ⊢
            cases given : values.get? found.context found.name with
            | none => simp [given] at first
            | some rendering =>
              rw [kept _ _ _ given]
              rwa [given] at first
        rw [same]
        simp only [ih later]
        simpa only [first, later] using expands

/-- **Both renderings of a name come from the same value.** A source has a
rendering of a name for strings if and only if it has one for other places, and
then both are those of the leftmost leaf that has the name; how they correspond
depends on the leaf only. So whether a template expands is a matter of the names
of its occurrences, and a second source makes no difference to a template that
expands without it. -/
theorem renderings_come_from_one_leaf (environment : Environment) (values : Values) :
    (∀ name, ((values.renderingsIn environment).inString name).isSome =
      ((values.renderingsIn environment).raw name).isSome) ∧
    (∀ name, values.leftmost? environment name = none →
      (values.renderingsIn environment).inString name = none ∧ (values.renderingsIn environment).raw name = none) ∧
    (∀ name leaf, values.leftmost? environment name = some leaf →
      ∃ inString raw, (values.renderingsIn environment).inString name = some inString ∧
        (values.renderingsIn environment).raw name = some raw ∧ leaf.renderings.inString name = some inString ∧
        leaf.renderings.raw name = some raw ∧ leaf.Corresponds name inString raw) ∧
    (∀ template template' : Template,
      (∀ name, name ∈ template.occurrences.map Occurrence.name ↔ name ∈ template'.occurrences.map Occurrence.name) →
      ((∃ text, template.expandToText (values.renderingsIn environment) = .ok text) ↔
        ∃ text, template'.expandToText (values.renderingsIn environment) = .ok text)) ∧
    ∀ (template : Template) (text : Text), template.expandToText (values.renderingsIn environment) = .ok text →
      ∀ second, template.expandToText ((Values.fallback values second).renderingsIn environment) = .ok text := by
  have cases := Values.renderings_of_leftmost environment values
  refine ⟨fun name => ?_, fun name absent => ?_, fun name leaf leftmost => ?_,
    fun template template' sameNames => ?_, fun template text expands second => ?_⟩
  · rcases cases name with ⟨_, inString, raw⟩ | ⟨_, _, _, _, _, _, _, inString, raw⟩
    · rw [inString, raw]
    · rw [inString, raw]
      rfl
  · rcases cases name with ⟨_, inString, raw⟩ | ⟨leaf, _, _, present, _⟩
    · exact ⟨inString, raw⟩
    · rw [absent] at present
      cases present
  · rcases cases name with ⟨absent, _⟩ | ⟨leaf', _, _, leftmost', given, given', corresponds, inString, raw⟩
    · rw [leftmost] at absent
      cases absent
    · obtain rfl : leaf = leaf' := Option.some.inj (leftmost.symm.trans leftmost')
      exact ⟨_, _, inString, raw, given, given', corresponds⟩
  · rw [expands_iff_leaves, expands_iff_leaves]
    exact forall_congr' fun name => imp_congr_left (sameNames name)
  · rw [Template.expandToText_eq] at expands ⊢
    apply expandAll_of_kept expands
    intro context name rendering given
    rw [Values.get?_fallback, given, Option.some_or]

/-- A list gives the sample all its values, so a second source is not asked. -/
theorem sample_without_second :
    Template.expandToText ⟨sampleSource, sampleConfig, markRaw sampleRaw sampleSegments⟩
        ((Values.fallback (.list [(['v'], .integer 5)]) (.json .null)).renderingsIn []) =
      .ok ['\x7b', '5', ':', '[', '"', '5', '"', ',', '5', ']', '\x7d'] := by
  have alone : Template.expandToText ⟨sampleSource, sampleConfig, markRaw sampleRaw sampleSegments⟩
      ((Values.list [(['v'], .integer 5)]).renderingsIn []) =
        .ok ['\x7b', '5', ':', '[', '"', '5', '"', ',', '5', ']', '\x7d'] := by
    rfl
  obtain ⟨_, _, _, _, unasked⟩ := renderings_come_from_one_leaf [] (.list [(['v'], .integer 5)])
  exact unasked _ _ alone (.json .null)

end Stencil
