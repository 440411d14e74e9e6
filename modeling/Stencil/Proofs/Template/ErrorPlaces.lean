import Stencil.Proofs.Diagnostic.Lines
import Stencil.Proofs.Template.Rebasing

/-! Errors are somewhere in the source. The reader of the encoded document stops
between two of its marks, and between the same marks of the source there is a
character, or the end. An occurrence without a value is where numbering says.
So the range of an error is a part of the source, and it can be shown. -/
namespace Stencil

open Document

variable {config : Config} {source : Text} {base : Nat} {segments : List Segment} {marks : List Mark}

/-! ### Compiling -/

/-- Changing the result of something does not change how it fails. -/
theorem map_eq_error_iff {α β ε : Type} {outcome : Except ε α} {change : α → β} {error : ε} :
    outcome.map change = .error error ↔ outcome = .error error := by
  cases outcome <;> simp [Except.map]

/-- The only thing that can go wrong with numbering is that there are not enough codes. -/
theorem number_eq_error {position offset : Nat} {pieces : List Piece} {error : ParseError}
    (failed : Segment.number config base position offset pieces = .error error) :
    ∃ place, error = .tooManyMacros place Code.limit := by
  induction pieces generalizing position offset with
  | nil => cases failed
  | cons piece pieces ih =>
    cases piece with
    | literal text =>
      rw [Segment.number, map_eq_error_iff] at failed
      exact ih failed
    | occurrence name =>
      rw [Segment.number] at failed
      cases next : Code.nth? base offset with
      | none => exact ⟨position, by simpa [next, eq_comm] using failed⟩
      | some code =>
        simp only [next, map_eq_error_iff] at failed
        exact ih failed

/-- Compiling fails because of a tag, because there are too many occurrences, or
because the encoded document is none. -/
theorem compile_eq_error {error : ParseError} (failed : Template.compile config source base = .error error) :
    (∃ delimiter, config.emptyDelimiter? = some delimiter ∧ error = .emptyDelimiter delimiter) ∨
    (∃ place, error = .tooManyMacros place Code.limit) ∨
    ∃ segments failure, config.emptyDelimiter? = none ∧ Segment.ofSource config source base = .ok segments ∧
      Document.parse (encodedOf segments) = .error failure ∧
      error = Template.errorInSource config source segments failure := by
  unfold Template.compile at failed
  cases empty : config.emptyDelimiter? with
  | some delimiter => exact .inl ⟨delimiter, rfl, by simpa [empty, eq_comm] using failed⟩
  | none =>
    cases divided : Segment.ofSource config source base with
    | error failure =>
      obtain rfl : failure = error := by simpa [empty, divided] using failed
      exact .inr (.inl (number_eq_error divided))
    | ok segments =>
      cases search : Template.findRaw config source segments with
      | ok raw => simp [empty, divided, search] at failed
      | error failure =>
        obtain rfl : failure = error := by simpa [empty, divided, search] using failed
        unfold Template.findRaw at search
        split at search
        · cases search
        · split at search
          · cases search
          · rename_i syntaxError parsed
            exact .inr (.inr ⟨segments, syntaxError, rfl, rfl, parsed, (Except.error.inj search).symm⟩)

/-- The reader stops between two marks of the encoded document, because a reading
in step with itself can only fail at a mark. -/
theorem Encodes.error_place (encodes : Encodes config source base marks) {error : SyntaxError}
    (failed : Document.parse (filledOf Occurrence.encoded marks) = .error error) :
    ∃ front back, marks = front ++ back ∧ error.position = Text.size (filledOf Occurrence.encoded front) ∧
      error.found = (filledOf Occurrence.encoded back).head? := by
  have parsed : Twins.SameResult _ _ (Document.parse (filledOf Occurrence.encoded marks)) _ :=
    Twins.parse (encodes.numeric encodes.fits encodes.base_lt)
  rw [failed] at parsed
  generalize Document.parse (filledOf (Twins.withBase marks base).right _) = other at parsed
  cases parsed with
  | error same =>
    obtain ⟨front, back, split, position, _, found, _⟩ := same
    exact ⟨front, back, split, position, found⟩

/-- An error at a mark is shown at the character of the source that begins the mark there. -/
theorem Encodes.errorInSource_at_mark (encodes : Encodes config source base (marksOf segments))
    (tagged : config.startTag ≠ []) {front back : List Mark} {mark : Mark}
    (split : marksOf segments = front ++ mark :: back) {error : SyntaxError}
    (position : error.position = Text.size (filledOf Occurrence.encoded front)) (found : error.found ≠ none) :
    ∃ shown later, (mark.filled (Occurrence.source config)).head? = some shown ∧
      source = filledOf (Occurrence.source config) front ++ shown :: later ∧
      Template.errorInSource config source segments error =
        .unexpectedCharacter (Text.size (filledOf (Occurrence.source config) front)) shown error.expected := by
  obtain ⟨shown, first⟩ := mark.exists_head tagged
  obtain ⟨later, mark_eq⟩ := List.head?_eq_some_iff.mp first
  refine ⟨shown, later ++ filledOf (Occurrence.source config) back, first, ?_, ?_⟩
  · rw [← encodes.source_eq, split, filledOf_append, filledOf_cons, mark_eq, List.cons_append]
  · exact errorInSource_between encodes.source_eq split first position found

/-- Where the encoded document is wrong, there is a character of the source, or its end. -/
theorem Encodes.errorInSource_place (encodes : Encodes config source base (marksOf segments))
    (tagged : config.startTag ≠ []) {error : SyntaxError}
    (failed : Document.parse (encodedOf segments) = .error error) :
    (∃ before character after, source = before ++ character :: after ∧
      Template.errorInSource config source segments error =
        .unexpectedCharacter (Text.size before) character error.expected) ∨
    Template.errorInSource config source segments error = .unexpectedEnd (Text.size source) error.expected := by
  rw [encodedOf_eq_filledOf] at failed
  obtain ⟨front, back, split, position, found⟩ := encodes.error_place failed
  cases back with
  | nil =>
    right
    rw [filledOf_nil, List.head?_nil] at found
    simp only [Template.errorInSource, found]
  | cons mark back =>
    left
    obtain ⟨shown, later, _, division, error_eq⟩ :=
      encodes.errorInSource_at_mark tagged split position (found ▸ head?_encoded_ne_none mark back)
    exact ⟨_, shown, later, division, error_eq⟩

/-! ### Expanding -/

/-- An expansion fails at the first occurrence without a value. -/
theorem expandAll_first_missing {values : Renderings} {error : ExpandError}
    (failed : Segment.expandAll config values segments = .error error) :
    ∃ before found after, occurrencesOf segments = before ++ found :: after ∧
      (∀ earlier ∈ before, ∃ rendering, values.get? earlier.context earlier.name = some rendering) ∧
      values.get? found.context found.name = none ∧
      error = .noSuchMacro (found.position + Text.size config.startTag) found.name := by
  induction segments with
  | nil => cases failed
  | cons segment rest ih =>
    rw [Segment.expandAll] at failed
    cases segment with
    | literal text =>
      simp only [Segment.expand, map_eq_error_iff] at failed
      exact ih failed
    | occurrence found =>
      simp only [Segment.expand, Occurrence.expand] at failed
      cases value : values.get? found.context found.name with
      | none =>
        simp only [value, Except.error.injEq] at failed
        exact ⟨[], found, occurrencesOf rest, rfl, by simp, value, failed.symm⟩
      | some text =>
        simp only [value, map_eq_error_iff] at failed
        obtain ⟨before, missing, after, split, given, absent, error_eq⟩ := ih failed
        refine ⟨found :: before, missing, after, ?_, ?_, absent, error_eq⟩
        · rw [List.cons_append, ← split]
          rfl
        · exact List.forall_mem_cons.mpr ⟨⟨text, value⟩, given⟩

/-- An expansion fails because an occurrence has no value. -/
theorem expandAll_eq_error {values : Renderings} {error : ExpandError}
    (failed : Segment.expandAll config values segments = .error error) :
    ∃ found ∈ occurrencesOf segments, values.get? found.context found.name = none ∧
      error = .noSuchMacro (found.position + Text.size config.startTag) found.name := by
  obtain ⟨before, found, after, split, _, absent, error_eq⟩ := expandAll_first_missing failed
  exact ⟨found, by simp [split], absent, error_eq⟩

/-- An occurrence stands in the source at its position. -/
theorem Numbered.source_split (numbered : Numbered config base marks) {found : Occurrence}
    (member : .occurrence found ∈ marks) :
    ∃ front back, filledOf (Occurrence.source config) marks =
      front ++ (config.startTag ++ found.name ++ config.endTag ++ back) ∧ found.position = Text.size front := by
  obtain ⟨front, back, rfl⟩ := List.append_of_mem member
  obtain ⟨position, _⟩ := numbered front found back rfl
  refine ⟨filledOf (Occurrence.source config) front, filledOf (Occurrence.source config) back, ?_, position⟩
  rw [filledOf_append, filledOf_cons, Mark.filled, Occurrence.source]

/-- The name of an occurrence stands in the source behind the start tag. -/
theorem Encodes.name_place (encodes : Encodes config source base marks) {found : Occurrence}
    (member : .occurrence found ∈ marks) :
    ∃ before after, source = before ++ found.name ++ after ∧
      found.position + Text.size config.startTag = Text.size before := by
  obtain ⟨front, back, split, position⟩ := encodes.numbered.source_split member
  refine ⟨front ++ config.startTag, config.endTag ++ back, ?_, ?_⟩
  · rw [← encodes.source_eq, split]
    simp only [List.append_assoc]
  · rw [position, Text.size_append]

/-! ### Showing errors -/

variable (width : Text → Nat)

/-- **Every error can be shown in its source.** An error of compiling, unless there
are too many occurrences, is about no part of the source and shows nothing, or its
range is a part of the source and shows as the line in which it starts. So does
the range of an error of expanding, whatever the values are, and however many
columns texts take up. -/
theorem errors_can_be_shown (fits : Supply.fits source base = true) (bounded : base < Code.baseBound) :
    (∀ error, Template.compile config source base = .error error →
      (∀ position limit, error ≠ .tooManyMacros position limit) →
        (error.range? = none ∧ error.line? source = some [] ∧ error.highlight? source width = some []) ∨
        ∃ range, error.range? = some range ∧
          range.ShowsAs width source (error.line? source) (error.highlight? source width)) ∧
    ∀ compiled values error, Template.compile config source base = .ok compiled →
      compiled.template.expand values = .error error →
        error.range.ShowsAs width source (error.range.line? source) (error.highlight? source width) := by
  constructor
  · intro error failed enough
    rcases compile_eq_error failed with
      ⟨delimiter, _, rfl⟩ | ⟨place, rfl⟩ | ⟨segments, failure, tagged, divided, parsed, rfl⟩
    · exact .inl ⟨rfl, rfl, rfl⟩
    · exact absurd rfl (enough place Code.limit)
    · right
      obtain ⟨startTag_ne, _⟩ := Config.emptyDelimiter?_eq_none_iff.mp tagged
      obtain ⟨encodes, _⟩ := encodes_of_ofSource fits bounded divided
      rcases encodes.errorInSource_place startTag_ne parsed with
        ⟨before, character, after, split, error_eq⟩ | error_eq
      · rw [error_eq]
        refine ⟨⟨Text.size before, Text.size before + character.utf8Size⟩, rfl, ?_⟩
        have division : source = before ++ [character] ++ after := by rw [split, List.append_assoc]; rfl
        exact SourceRange.showsAs_of_split width division rfl (by simp)
      · rw [error_eq]
        refine ⟨⟨Text.size source, Text.size source⟩, rfl, ?_⟩
        have division : source = source ++ [] ++ [] := by simp
        exact SourceRange.showsAs_of_split width division rfl (by simp)
  · intro compiled values error compiles failed
    have encodes := encodes_of_compile fits bounded compiles
    obtain ⟨segments, raw, _, _, rfl⟩ := compile_eq_ok compiles
    obtain ⟨found, known, _, rfl⟩ := expandAll_eq_error failed
    rw [occurrencesOf_eq_filterMap] at known
    obtain ⟨before, after, split, place⟩ := encodes.name_place (Encodes.mem_occurrences.mp known)
    apply SourceRange.showsAs_of_split width split
    · exact place
    · simp only [ExpandError.range, place, Text.size_append]

/-- A string literal with an occurrence behind a character of two bytes; a line break cuts it off. -/
def brokenSource : Text := ['"', 'é', '<', 'v', '>', '\n']

/-- The segments of the source. -/
def brokenSegments : List Segment :=
  [.literal ['"', 'é'], .occurrence ⟨['v'], 3, ⟨7, 0⟩, .string⟩, .literal ['\n']]

theorem ofSource_broken : Segment.ofSource sampleConfig brokenSource 7 = .ok brokenSegments := by
  have pieces : Piece.scan sampleConfig brokenSource =
      [.literal ['"', 'é'], .occurrence ['v'], .literal ['\n']] := by cbv
  rw [Segment.ofSource, pieces]
  decide

theorem parse_broken :
    Document.parse (encodedOf brokenSegments) = .error ⟨13, some '\n', .closingQuoteOrEscape⟩ := by
  have encoded : encodedOf brokenSegments = ['"', 'é'] ++ sampleDigits '0' ++ ['\n'] := by cbv
  rw [encoded]
  rfl

theorem compile_broken : Template.compile sampleConfig brokenSource 7 =
    .error (.unexpectedCharacter 6 '\n' .closingQuoteOrEscape) := by
  have digits : Code.digits ⟨7, 0⟩ = sampleDigits '0' := by cbv
  have place : Segment.sourceOffset sampleConfig 0 brokenSegments 13 = 6 := by
    simp only [brokenSegments, Segment.sourceOffset, Segment.encoded, digits]
    rfl
  have search : Template.findRaw sampleConfig brokenSource brokenSegments =
      .error (.unexpectedCharacter 6 '\n' .closingQuoteOrEscape) := by
    rw [Template.findRaw, if_neg (by decide)]
    simp only [parse_broken, Template.errorInSource, place]
    rfl
  simp only [Template.compile, ofSource_broken, search]
  rfl

/-- The error at the line break is shown in the line that the line break ends. -/
theorem broken_line_shown :
    SourceRange.ShowsAs Text.width brokenSource ⟨6, 7⟩ (some ['"', 'é', '<', 'v', '>'])
      (SourceRange.highlight? brokenSource ⟨6, 7⟩) := by
  have shows := (errors_can_be_shown Text.width (by decide) (by decide)).1 _ compile_broken nofun
  rcases shows with ⟨nowhere, _⟩ | ⟨range, place, shown⟩
  · cases nowhere
  · obtain rfl := Option.some.inj place
    exact shown

end Stencil
