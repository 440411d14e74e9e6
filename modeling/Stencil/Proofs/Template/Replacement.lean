import Stencil.Proofs.Template.ErrorPlaces
import Stencil.Proofs.Template.Exchange
import Stencil.Proofs.Template.Leftmost
import Stencil.Proofs.Values.Leaves

/-! Expansion replaces the occurrences of a source, each by its rendering, and
nothing else. The segments as ranges of the source expand to the same text, with
every slice between characters, because they follow each other without gap. The
first occurrence without a rendering stops the expansion, and the error is about
the name that stands there. -/
namespace Stencil

variable {config : Config} {source text : Text} {base : Nat} {compiled : Compiled} {values : Renderings}

/-! ### Expansion by ranges -/

theorem SourceRange.text?_between (front text back : Text) :
    SourceRange.text? (front ++ (text ++ back)) ⟨Text.size front, Text.size front + Text.size text⟩ = some text := by
  have ordered : Text.size front ≤ Text.size front + Text.size text := Nat.le_add_right _ _
  rw [SourceRange.text?, if_pos ordered, Text.cut?_append, Nat.add_sub_cancel_left]
  simp [Text.cut?_append]

/-- A segment that follows the given marks expands as its span does. -/
theorem Numbered.expand? {front back : List Mark} {segment : Segment}
    (numbered : Numbered config base (front ++ (segment.marks ++ back))) (values : Renderings) :
    (segment.span config (Text.size (filledOf (Occurrence.source config) front))).expand?
        (filledOf (Occurrence.source config) (front ++ (segment.marks ++ back))) values =
      some (segment.expand config values) := by
  rw [filledOf_append, filledOf_append, Segment.source_marks]
  cases segment with
  | literal text =>
    rw [Segment.span, Span.expand?, Segment.source, SourceRange.text?_between]
    rfl
  | occurrence found =>
    obtain ⟨position, _, _⟩ := numbered front found back rfl
    have name := SourceRange.text?_between (filledOf (Occurrence.source config) front ++ config.startTag) found.name
      (config.endTag ++ filledOf (Occurrence.source config) back)
    rw [Text.size_append, ← position] at name
    have split : filledOf (Occurrence.source config) front ++
        ((Segment.occurrence found).source config ++ filledOf (Occurrence.source config) back) =
        filledOf (Occurrence.source config) front ++ config.startTag ++
          (found.name ++ (config.endTag ++ filledOf (Occurrence.source config) back)) := by
      simp [Segment.source]
    rw [split, Segment.span, Span.expand?, ByteScan.placed, name]
    rfl

/-- **Ranges expand as segments do**, and no slice breaks a character. -/
theorem Numbered.expandAll? {front : List Mark} {segments : List Segment}
    (numbered : Numbered config base (front ++ marksOf segments)) (values : Renderings) :
    Span.expandAll? (filledOf (Occurrence.source config) (front ++ marksOf segments)) values
        (spansOf config (Text.size (filledOf (Occurrence.source config) front)) segments) =
      some (Segment.expandAll config values segments) := by
  induction segments generalizing front with
  | nil => rfl
  | cons segment rest ih =>
    rw [marksOf_cons] at numbered ⊢
    have later := ih (by rwa [List.append_assoc] : Numbered config base (front ++ segment.marks ++ marksOf rest))
    rw [List.append_assoc, filledOf_append _ front segment.marks, Segment.source_marks, Text.size_append] at later
    rw [spansOf_cons, Span.expandAll?, numbered.expand?, Segment.expandAll]
    cases segment.expand config values with
    | error error => rfl
    | ok text => simp only [later, Option.map_some]

/-! ### Templates without occurrences -/

/-- A template is literal if and only if it has no occurrences, and then it is its own source. -/
theorem literal?_of_compile (compiles : Template.compile config source base = .ok compiled) :
    compiled.template.literal? = if compiled.template.occurrences = [] then some source else none := by
  obtain ⟨segments, raw, numbered, _, rfl⟩ := compile_eq_ok compiles
  have divided : Divided config [] source segments := divided_of_number .nil numbered
  cases divided with
  | nil => rfl
  | occurrence here position later => rfl
  | @literal _ literal text rest some isLiteral alone later =>
    cases later with
    | nil =>
      rw [List.append_nil]
      rfl
    | occurrence here position later => rfl
    | literal some isLiteral alone' later => exact absurd rfl (alone _ _)

/-! ### Occurrences in the order of the source -/

/-- What stands behind an occurrence in the list of occurrences stands behind it in the source. -/
theorem Numbered.position_lt {marks : List Mark} (numbered : Numbered config base marks)
    (tagged : config.startTag ≠ []) {before after : List Occurrence} {found later : Occurrence}
    (split : marks.filterMap Mark.occurrence? = before ++ found :: after) (member : later ∈ after) :
    found.position < later.position := by
  have ascending := numbered.ascending
  rw [split] at ascending
  exact (List.rel_of_pairwise_cons (List.pairwise_append.mp ascending).2.1 member).2 tagged

/-! ### Expanding -/

theorem expand_of_compile (compiles : Template.compile config source base = .ok compiled) (values : Renderings) :
    compiled.template.expand values = Segment.expandAll config values compiled.template.segments := by
  rw [Template.expand, (source_of_compile compiles).2]

/-- A text that segments expand to is made of their marks. -/
theorem filledOf_of_expandAll {segments : List Segment}
    (expands : Segment.expandAll config values segments = .ok text) :
    filledOf (Occurrence.rendering values) (marksOf segments) = text := by
  rw [expandAll_eq_ok (given_of_expandAll expands)] at expands
  exact Except.ok.inj expands

/-- Renderings that are what stands in the source make the source again. -/
theorem filledOf_of_unchanged {segments : List Segment}
    (unchanged : ∀ found ∈ occurrencesOf segments,
      values.get? found.context found.name = some (config.startTag ++ found.name ++ config.endTag)) :
    filledOf (Occurrence.rendering values) (marksOf segments) =
      filledOf (Occurrence.source config) (marksOf segments) := by
  rw [occurrencesOf_eq_filterMap] at unchanged
  apply List.flatMap_congr
  intro mark member
  cases mark with
  | character char => rfl
  | occurrence found =>
    rw [Mark.filled, Mark.filled, Occurrence.rendering, unchanged found (Encodes.mem_occurrences.mpr member)]
    rfl

/-- The first occurrence without a rendering is the first one in the source. -/
theorem first_missing_of_compile (compiles : Template.compile config source base = .ok compiled) {error : ExpandError}
    (failed : Segment.expandAll config values compiled.template.segments = .error error) :
    ∃ found ∈ compiled.template.occurrences, values.get? found.context found.name = none ∧
      (∀ other ∈ compiled.template.occurrences, values.get? other.context other.name = none →
        other = found ∨ found.position < other.position) ∧
      error = .noSuchMacro (found.position + Text.size config.startTag) found.name := by
  obtain ⟨numbered, _⟩ := numbered_of_compile compiles
  obtain ⟨tagged, _⟩ := Config.emptyDelimiter?_eq_none_iff.mp (tagged_of_compile compiles)
  obtain ⟨before, found, after, split, given, absent, error_eq⟩ := expandAll_first_missing failed
  rw [Template.occurrences, split]
  refine ⟨found, by simp, absent, ?_, error_eq⟩
  intro other member missing
  rcases List.mem_append.mp member with earlier | later
  · obtain ⟨rendering, value⟩ := given other earlier
    rw [missing] at value
    cases value
  · rcases List.mem_cons.mp later with rfl | later
    · exact .inl rfl
    · rw [occurrencesOf_eq_filterMap] at split
      exact .inr (numbered.position_lt tagged split later)

/-- **Expansion replaces exactly the occurrences.** A compiled source expands if
and only if the values have a rendering of every occurrence for its context. Then
the text is the source in which the span of each occurrence is exchanged for its
rendering; when the renderings are what stands in the source, it is the source
again. Otherwise the error is about the first occurrence in the source without a
rendering, and its range is the name behind the start tag. Looking for a template
without occurrences first changes nothing, and expanding by ranges gives the same. -/
theorem expansion_replaces_occurrences (compiles : Template.compile config source base = .ok compiled)
    (values : Renderings) :
    ((∃ text, compiled.template.expandToText values = .ok text) ↔
      ∀ found ∈ compiled.template.occurrences, ∃ rendering,
        values.get? found.context found.name = some rendering) ∧
    (∀ text, compiled.template.expandToText values = .ok text →
      Text.exchange? 0 source
        (compiled.template.occurrences.map (Occurrence.exchanged config (Occurrence.rendering values))) = some text) ∧
    ((∀ found ∈ compiled.template.occurrences,
        values.get? found.context found.name = some (config.startTag ++ found.name ++ config.endTag)) →
      compiled.template.expandToText values = .ok source) ∧
    (∀ error, compiled.template.expandToText values = .error error →
      ∃ found ∈ compiled.template.occurrences, values.get? found.context found.name = none ∧
        (∀ other ∈ compiled.template.occurrences, values.get? other.context other.name = none →
          other = found ∨ found.position < other.position) ∧
        error = .noSuchMacro (found.position + Text.size config.startTag) found.name ∧
        error.range.text? source = some found.name ∧
        ∃ front back, source = front ++ (config.startTag ++ found.name ++ config.endTag ++ back) ∧
          found.position = Text.size front) ∧
    (compiled.template.literal? = if compiled.template.occurrences = [] then some source else none) ∧
    compiled.template.expandToText values = compiled.template.expand values ∧
    Span.expandAll? source values (spansOf config 0 compiled.template.segments) =
      some (compiled.template.expand values) := by
  obtain ⟨numbered, source_eq⟩ := numbered_of_compile compiles
  have expand_eq := expand_of_compile compiles values
  rw [Template.expandToText_eq, expand_eq]
  refine ⟨?_, ?_, ?_, ?_, literal?_of_compile compiles, rfl, ?_⟩
  · rw [← expand_eq, ← Template.expandToText_eq]
    exact expands_iff
  · intro text expands
    rw [exchanged_of_compile compiles, filledOf_of_expandAll expands]
  · intro unchanged
    rw [expandAll_eq_ok fun found member => ⟨_, unchanged found member⟩, filledOf_of_unchanged unchanged, source_eq]
  · intro error failed
    obtain ⟨found, member, absent, first, rfl⟩ := first_missing_of_compile compiles failed
    rw [Template.occurrences, occurrencesOf_eq_filterMap] at member
    obtain ⟨front, back, split, position⟩ := numbered.source_split (Encodes.mem_occurrences.mp member)
    rw [source_eq] at split
    rw [← occurrencesOf_eq_filterMap] at member
    refine ⟨found, member, absent, first, rfl, ?_, front, back, split, position⟩
    have name := SourceRange.text?_between (front ++ config.startTag) found.name (config.endTag ++ back)
    rw [Text.size_append, ← position] at name
    rw [ExpandError.range, split]
    simpa using name
  · have expanded := Numbered.expandAll?
      (by rwa [List.nil_append] : Numbered config base ([] ++ marksOf compiled.template.segments)) values
    rwa [List.nil_append, source_eq] at expanded

/-- Without a rendering for strings, the sample fails at its second occurrence; with what stands there, it stays. -/
theorem sample_without_string_rendering :
    Template.expandToText ⟨sampleSource, sampleConfig, markRaw sampleRaw sampleSegments⟩
        ⟨fun _ => none, fun _ => some ['5']⟩ = .error (.noSuchMacro 8 ['v']) ∧
      SourceRange.text? sampleSource ⟨8, 9⟩ = some ['v'] ∧
      Template.expandToText ⟨sampleSource, sampleConfig, markRaw sampleRaw sampleSegments⟩
        ⟨fun name => some ('<' :: name ++ ['>']), fun name => some ('<' :: name ++ ['>'])⟩ = .ok sampleSource := by
  have failed : Template.expandToText ⟨sampleSource, sampleConfig, markRaw sampleRaw sampleSegments⟩
      ⟨fun _ => none, fun _ => some ['5']⟩ = .error (.noSuchMacro 8 ['v']) := rfl
  obtain ⟨_, _, _, stops, _⟩ := expansion_replaces_occurrences compile_sample ⟨fun _ => none, fun _ => some ['5']⟩
  obtain ⟨found, _, _, _, error_eq, name, _⟩ := stops _ failed
  obtain ⟨_, name_eq⟩ := ExpandError.noSuchMacro.inj error_eq
  rw [← name_eq] at name
  refine ⟨failed, name, ?_⟩
  refine (expansion_replaces_occurrences compile_sample _).2.2.1 ?_
  intro other _
  cases other.context <;> rfl

end Stencil
