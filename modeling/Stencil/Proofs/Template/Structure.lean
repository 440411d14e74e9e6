import Stencil.Proofs.Template.Splicing

/-! No injection: whatever the values are, as long as each rendering suits the
place of its occurrence, the expanded text is read as the encoded document is,
with renderings in the places of codes. -/
namespace Stencil

open Document (Lexeme Contents IsKey Node Part Denotes textOf)

variable {config : Config} {source : Text} {base : Nat} {compiled : Compiled} {values : Renderings}
  {lexemes : List Lexeme} {root : Node}

/-- Expansion succeeds when every occurrence has a rendering for its context. -/
theorem expandAll_eq_ok {segments : List Segment}
    (given : ∀ found ∈ occurrencesOf segments, ∃ text, values.get? found.context found.name = some text) :
    Segment.expandAll config values segments = .ok (filledOf (Occurrence.rendering values) (marksOf segments)) := by
  induction segments with
  | nil => rfl
  | cons segment rest ih =>
    cases segment with
    | literal text =>
      have later := ih given
      simp [Segment.expandAll, Segment.expand, later, Except.map, Segment.marks]
    | occurrence found =>
      obtain ⟨text, rendering⟩ := given found (by simp [occurrencesOf, Segment.occurrence?])
      have later := ih fun other member => given other (by
        simp only [occurrencesOf, List.filterMap_cons, Segment.occurrence?, List.mem_cons]
        exact .inr member)
      simp [Segment.expandAll, Segment.expand, Occurrence.expand, later, Except.map, Segment.marks, Mark.filled,
        Occurrence.rendering, rendering]

/-- The code of the occurrence after the given segments is part of the contents
of a string literal or of a quoted key, and no part of an escape sequence: whole
characters and escape sequences stand in front of it there. -/
def IsEmbedded (lexemes : List Lexeme) (front : List Segment) (found : Occurrence) : Prop :=
  ∃ earlier lexeme later before after, lexemes = earlier ++ lexeme :: later ∧
    (lexeme = .string (before ++ found.code.digits ++ after) ∨
      lexeme = .quotedKey (before ++ found.code.digits ++ after)) ∧
    encodedOf front = textOf earlier ++ '"' :: before ∧ Contents before

/-- When the occurrences in string context are embedded in strings, every
occurrence has its code in one lexeme. -/
theorem housed_of_compile (fits : Supply.fits source base = true) (bounded : base < Code.baseBound)
    (compiles : Template.compile config source base = .ok compiled)
    (parsed : Document.parse compiled.template.encoded = .ok root) (denotes : Denotes lexemes root)
    (text_eq : textOf lexemes = compiled.template.encoded)
    (embedded : ∀ front found back, compiled.template.segments = front ++ .occurrence found :: back →
      found.context = .string → IsEmbedded lexemes front found) :
    Housed lexemes (marksOf compiled.template.segments) := by
  intro front found back split
  obtain ⟨before, after, segments_eq, rfl, rfl⟩ := segments_split split
  cases context : found.context with
  | raw =>
    have whole := (isWholeToken_of_compile fits bounded compiles parsed denotes text_eq segments_eq).mp context
    obtain ⟨lexeme, shape, earlier, later, rfl, size_eq⟩ := whole
    have divisions := text_eq
    rw [Template.encoded, segments_eq, Document.textOf_append, encodedOf, List.flatMap_append] at divisions
    obtain ⟨earlier_eq, _⟩ := Text.append_inj_of_size divisions size_eq
    refine ⟨earlier, lexeme, later, [], rfl, ?_, ?_⟩
    · rcases shape with rfl | rfl
      · exact .value context
      · exact .key context
    · rw [← encodedOf_eq_filledOf, List.append_nil, earlier_eq]
      rfl
  | string =>
    obtain ⟨earlier, lexeme, later, inside, rest, rfl, shape, front_eq, proper⟩ :=
      embedded before found after segments_eq context
    refine ⟨earlier, lexeme, later, '"' :: inside, rfl, ?_, by rw [← encodedOf_eq_filledOf, front_eq]⟩
    rcases shape with rfl | rfl
    · exact .string context proper
    · exact .quotedKey context proper

/-- A value source suits a compiled template: it has escaped text for the
occurrences in strings, documents for those that are values, and whole keys for
those that are keys. -/
structure Renderings.Suit (values : Renderings) (template : Template) (lexemes : List Lexeme) : Prop where
  inString : ∀ found ∈ template.occurrences, found.context = .string →
    ∃ text, values.inString found.name = some (Json.escape text)
  value : ∀ found ∈ template.occurrences, found.context = .raw → .integer found.code.digits ∈ lexemes →
    ∃ text node, values.raw found.name = some text ∧ Document.parse text = .ok node
  key : ∀ found ∈ template.occurrences, found.context = .raw → .bareKey found.code.digits ∈ lexemes →
    ∃ key name, values.raw found.name = some (Lexeme.text name) ∧ IsKey key name

/-- Values that suit a template suit its cells. -/
theorem Renderings.Suit.cell {template : Template} {cells : List Cell}
    (suit : values.Suit template (cells.map Cell.encoded))
    (marks_eq : cells.flatMap Cell.marks = marksOf template.segments) {cell : Cell} (member : cell ∈ cells)
    (sound : cell.Sound) : cell.Suits values := by
  have occurs {found : Occurrence} (mark : .occurrence found ∈ cell.marks) : found ∈ template.occurrences := by
    rw [Template.occurrences, occurrencesOf_eq_filterMap, Encodes.mem_occurrences, ← marks_eq]
    exact List.mem_flatMap.mpr ⟨cell, member, mark⟩
  have between {inner : List Mark} (isBetween : Cell.Between inner)
      (marks : ∀ found, .occurrence found ∈ inner → .occurrence found ∈ cell.marks) :
      ∀ found, .occurrence found ∈ inner → ∃ text, values.inString found.name = some (Json.escape text) := by
    intro found inside
    obtain ⟨front, back, split⟩ := List.append_of_mem inside
    exact suit.inString found (occurs (marks found inside)) (isBetween front found back split).1
  cases cell with
  | plain lexeme => trivial
  | value found => exact suit.value found (occurs (by simp [Cell.marks])) sound (List.mem_map.mpr ⟨_, member, rfl⟩)
  | key found => exact suit.key found (occurs (by simp [Cell.marks])) sound (List.mem_map.mpr ⟨_, member, rfl⟩)
  | string inner | quotedKey inner => exact between sound fun found inside => by simp [Cell.marks, inside]

/-- Values that suit the cells of a template have a rendering for every occurrence. -/
theorem Renderings.Suit.given {template : Template} {cells : List Cell}
    (suit : values.Suit template (cells.map Cell.encoded))
    (marks_eq : cells.flatMap Cell.marks = marksOf template.segments) (allSound : ∀ cell ∈ cells, cell.Sound) :
    ∀ found ∈ template.occurrences, ∃ text, values.get? found.context found.name = some text := by
  intro found member
  have mark : .occurrence found ∈ cells.flatMap Cell.marks := by
    rw [marks_eq, ← Encodes.mem_occurrences, ← occurrencesOf_eq_filterMap]
    exact member
  obtain ⟨cell, isCell, inCell⟩ := List.mem_flatMap.mp mark
  have suits := suit.cell marks_eq isCell (allSound cell isCell)
  have sound := allSound cell isCell
  cases context : found.context with
  | string =>
    obtain ⟨text, rendering⟩ := suit.inString found member context
    exact ⟨_, rendering⟩
  | raw =>
    cases cell with
    | plain lexeme => simp [Cell.marks] at inCell
    | value other =>
      obtain rfl : found = other := by simpa [Cell.marks] using inCell
      obtain ⟨text, _, rendering, _⟩ := suits
      exact ⟨text, rendering⟩
    | key other =>
      obtain rfl : found = other := by simpa [Cell.marks] using inCell
      obtain ⟨_, name, rendering, _⟩ := suits
      exact ⟨name.text, rendering⟩
    | string inner | quotedKey inner =>
      have inside : .occurrence found ∈ inner := by simpa [Cell.marks] using inCell
      obtain ⟨front, back, split⟩ := List.append_of_mem inside
      have isBetween : Cell.Between inner := sound
      have isString := (isBetween front found back split).1
      rw [context] at isString
      cases isString

private theorem expands_to_phrase {template : Template} (denotes : Denotes lexemes root)
    (text_eq : textOf lexemes = template.encoded) (housed : Housed lexemes (marksOf template.segments))
    (suit : values.Suit template lexemes) :
    ∃ (cells : List Cell) (new : Node) (lexemes' : List Lexeme), cells.map Cell.encoded = lexemes ∧
      cells.flatMap Cell.marks = marksOf template.segments ∧ template.expand values = .ok (textOf lexemes') ∧
      Replaced (cells.filterMap (Cell.replacement? values)) (.value root) (.value new) ∧ Denotes lexemes' new := by
  have encoded_eq : filledOf Occurrence.encoded (marksOf template.segments) = textOf lexemes := by
    rw [← encodedOf_eq_filledOf, text_eq]
    rfl
  obtain ⟨cells, rfl, marks_eq, allSound⟩ := housed.cells encoded_eq
  have given := suit.given marks_eq allSound
  have spliced : SplicedCells values cells (.spaced root) := by
    apply splicedCells_of_phrase denotes cells rfl
    intro cell member
    exact ⟨allSound cell member, suit.cell marks_eq member (allSound cell member)⟩
  obtain ⟨new, lexemes', replaced, denotes', text_eq'⟩ := spliced
  refine ⟨cells, new, lexemes', rfl, marks_eq, ?_, replaced, denotes'⟩
  rw [Template.expand, expandAll_eq_ok given, text_eq', Cell.rendered, marks_eq]

/-- **Expansion preserves the document structure.** Let the occurrences in
string context be embedded in strings of the encoded document, and let the
values suit the template. Then the template expands; the lexemes of the encoded
document are cells that divide the marks of the template; and the expanded text
is read as the tree of the encoded document in which integers that are codes
become the trees of their renderings, keys that are codes the contents of
theirs, and codes in quoted keys their renderings, unless that tree is nested
too deep to be read. -/
theorem expand_preserves_structure (fits : Supply.fits source base = true) (bounded : base < Code.baseBound)
    (compiles : Template.compile config source base = .ok compiled) (some : compiled.template.occurrences ≠ []) :
    ∃ root, Document.parse compiled.template.encoded = .ok root ∧
      (∃ lexemes, Denotes lexemes root ∧ textOf lexemes = compiled.template.encoded) ∧
      ∀ lexemes, Denotes lexemes root → textOf lexemes = compiled.template.encoded →
        (∀ front found back, compiled.template.segments = front ++ .occurrence found :: back →
          found.context = .string → IsEmbedded lexemes front found) →
        ∀ values : Renderings, values.Suit compiled.template lexemes →
          ∃ (cells : List Cell) (text : Text) (new : Node), cells.map Cell.encoded = lexemes ∧
            cells.flatMap Cell.marks = marksOf compiled.template.segments ∧
            compiled.template.expand values = .ok text ∧
            Replaced (cells.filterMap (Cell.replacement? values)) (.value root) (.value new) ∧
            (new.depth ≤ Document.depthLimit → Document.parse text = .ok new) := by
  obtain ⟨_, root, _, parsed, _⟩ := compile_eq_ok_of_occurrences compiles some
  refine ⟨root, parsed, Document.denotes_of_parse parsed, ?_⟩
  intro lexemes denotes text_eq embedded values suit
  have housed := housed_of_compile fits bounded compiles parsed denotes text_eq embedded
  obtain ⟨cells, new, lexemes', encoded_eq, marks_eq, expands, replaced, denotes'⟩ :=
    expands_to_phrase denotes text_eq housed suit
  exact ⟨cells, textOf lexemes', new, encoded_eq, marks_eq, expands, replaced, Document.parse_of_denotes denotes'⟩

/-- The sample after compilation. -/
def sampleTemplate : Template := ⟨sampleSource, sampleConfig, markRaw sampleRaw sampleSegments⟩

/-- The lexemes of the encoded document of the sample. -/
def sampleLexemes : List Lexeme :=
  [.mark '\x7b', .bareKey (sampleDigits '0'), .mark ':', .mark '[', .string (sampleDigits '1'), .mark ',',
    .integer (sampleDigits '2'), .mark ']', .mark '\x7d']

/-- Values for the sample: a string where a token is needed, and escaped text elsewhere. -/
def sampleValues : Renderings where
  inString _ := some (Json.escape ['"'])
  raw _ := some ['"', 'x', '"']

theorem denotes_sample : Denotes sampleLexemes sampleRoot := by
  have contents : Contents (sampleDigits '1') := by
    have digits : Code.digits ⟨7, 1⟩ = sampleDigits '1' := by cbv
    exact digits ▸ contents_digits ⟨7, 1⟩
  have isInteger : Document.IsInteger (sampleDigits '2') := .unsigned (.positive rfl (by decide) (List.all_eq_true.mp rfl))
  have isKey : IsKey (sampleDigits '0') (.bareKey (sampleDigits '0')) := .bare (by decide) (List.all_eq_true.mp rfl)
  have items := Document.Phrase.nextItem (Document.Phrase.string contents).spaced_value
    (.lastItem (Document.Phrase.integer isInteger).spaced_value)
  have member := Document.Phrase.member .nil isKey .nil (Document.Phrase.array items).spaced_value
  exact (Document.Phrase.object (.lastMember member)).spaced_value

theorem embedded_sample (front : List Segment) (found : Occurrence) (back : List Segment)
    (split : sampleTemplate.segments = front ++ .occurrence found :: back) (isString : found.context = .string) :
    IsEmbedded sampleLexemes front found := by
  have member : found ∈ occurrencesOf sampleTemplate.segments := by
    simp [split, occurrencesOf, Segment.occurrence?]
  have found_eq : found = ⟨['v'], 7, ⟨7, 1⟩, .string⟩ := by
    have one : found = ⟨['v'], 1, ⟨7, 0⟩, .raw⟩ ∨ found = ⟨['v'], 7, ⟨7, 1⟩, .string⟩ ∨
        found = ⟨['v'], 12, ⟨7, 2⟩, .raw⟩ := by
      have listed : occurrencesOf sampleTemplate.segments =
          [⟨['v'], 1, ⟨7, 0⟩, .raw⟩, ⟨['v'], 7, ⟨7, 1⟩, .string⟩, ⟨['v'], 12, ⟨7, 2⟩, .raw⟩] := by decide
      simpa [listed] using member
    rcases one with rfl | rfl | rfl
    · cases isString
    · rfl
    · cases isString
  subst found_eq
  have division : sampleTemplate.segments =
      sampleTemplate.segments.take 3 ++ .occurrence ⟨['v'], 7, ⟨7, 1⟩, .string⟩ :: sampleTemplate.segments.drop 4 := by
    decide
  obtain ⟨rfl, _, _⟩ := (List.append_cons_inj_of_notMem (by decide) (by decide)).mp (division.symm.trans split)
  refine ⟨sampleLexemes.take 4, .string (sampleDigits '1'), sampleLexemes.drop 5, [], [], rfl, .inl ?_, ?_, .nil⟩
  · cbv
  · cbv

theorem suit_sample : sampleValues.Suit sampleTemplate sampleLexemes where
  inString _ _ _ := ⟨_, rfl⟩
  value _ _ _ _ := ⟨_, .other, rfl, rfl⟩
  key _ _ _ _ := ⟨['x'], .quotedKey ['x'], rfl, .quoted (.plain (by decide) (by decide) (by decide) .nil)⟩

/-- The sample expands to a document with the structure of its encoded document. -/
theorem structure_of_sample : ∃ (cells : List Cell) (text : Text) (new : Node),
    cells.map Cell.encoded = sampleLexemes ∧ sampleTemplate.expand sampleValues = .ok text ∧
      Replaced (cells.filterMap (Cell.replacement? sampleValues))
        (.value sampleRoot) (.value new) ∧
      (new.depth ≤ Document.depthLimit → Document.parse text = .ok new) := by
  have text_eq : textOf sampleLexemes = sampleTemplate.encoded := by cbv
  have read := Document.parse_of_denotes denotes_sample (by decide)
  obtain ⟨root, parsed, _, preserved⟩ :=
    expand_preserves_structure (by decide) (by decide) compile_sample (by decide)
  obtain rfl := Except.ok.inj (parsed.symm.trans ((congrArg Document.parse text_eq).symm.trans read))
  obtain ⟨cells, text, new, encoded_eq, _, expands, replaced, reads⟩ :=
    preserved sampleLexemes denotes_sample text_eq embedded_sample sampleValues suit_sample
  exact ⟨cells, text, new, encoded_eq, expands, replaced, reads⟩

end Stencil
