import Stencil.Template.Log
import Stencil.Proofs.Document.Nesting
import Stencil.Proofs.Template.ErrorPlaces
import Stencil.Proofs.Template.Leftmost
import Stencil.Proofs.Template.Structure

/-! Which sources compile. A source in which no occurrence stands compiles to
itself, whatever text it is. A source with occurrences compiles if and only if
it is a document when a number stands in for each of them; which number it is
makes no difference, so this can be said without the codes. -/
namespace Stencil

open Document

variable {config : Config} {source text : Text} {base : Nat} {segments : List Segment}

/-! ### Sources with occurrences and without -/

/-- A start tag, a known name and an end tag stand somewhere in a text. -/
def Config.OccursIn (config : Config) (text : Text) : Prop :=
  ∃ name ∈ config.names.toList, config.startTag ++ name ++ config.endTag <:+: text

theorem Piece.count_consLiteral (character : Char) (pieces : List Piece) :
    Piece.count (Piece.consLiteral character pieces) = Piece.count pieces := by
  unfold Piece.consLiteral
  split <;> rfl

/-- Some occurrence is found if and only if one stands somewhere. -/
theorem Piece.count_scan_eq_zero_iff :
    Piece.count (Piece.scan config text) = 0 ↔ ¬ config.OccursIn text := by
  fun_induction Piece.scan config text with
  | case1 =>
    refine ⟨fun _ => ?_, fun _ => rfl⟩
    rintro ⟨name, known, stands⟩
    have present := config.names.nonempty name known
    rw [List.infix_nil] at stands
    simp [present] at stands
  | case2 character rest name afterEnd found _ =>
    obtain ⟨known, division⟩ := Config.eq_of_occurrence?_eq_some found
    have stands : config.OccursIn (character :: rest) := ⟨name, known, [], afterEnd, by simp [division]⟩
    simp [Piece.count, stands]
  | case3 character rest none ih =>
    rw [Piece.count_consLiteral, ih]
    have here (name : Text) : ¬ config.OccursAt ([] ++ character :: rest) (Text.size []) name :=
      Config.not_occursAt_of_occurrence? none
    refine not_congr ⟨?_, ?_⟩
    · rintro ⟨name, known, stands⟩
      exact ⟨name, known, List.infix_cons stands⟩
    · rintro ⟨name, known, stands⟩
      refine ⟨name, known, (List.infix_cons_iff.mp stands).resolve_left ?_⟩
      rintro ⟨after, division⟩
      exact here name (Config.occursAt_size.mpr ⟨known, after, division.symm⟩)

/-- The names and the places of the occurrences among pieces that begin at a byte offset. -/
def Piece.places (config : Config) : (start : Nat) → List Piece → List (Text × Nat)
  | _, [] => []
  | start, .literal text :: pieces => places config (start + Text.size text) pieces
  | start, .occurrence name :: pieces =>
    (name, start) :: places config (start + Text.size (Piece.source config (.occurrence name))) pieces

theorem Piece.length_places (start : Nat) (pieces : List Piece) :
    (Piece.places config start pieces).length = Piece.count pieces := by
  induction pieces generalizing start with
  | nil => rfl
  | cons piece pieces ih =>
    cases piece with
    | literal text => rw [Piece.places, Piece.count, ih]
    | occurrence name => rw [Piece.places, Piece.count, List.length_cons, ih]

/-- Numbering gives the occurrences their names and places. -/
theorem places_of_number {position offset : Nat} {pieces : List Piece}
    (numbered : Segment.number config base position offset pieces = .ok segments) :
    (occurrencesOf segments).map (fun found => (found.name, found.position)) =
      Piece.places config position pieces := by
  induction pieces generalizing position offset segments with
  | nil =>
    obtain rfl := Except.ok.inj numbered
    rfl
  | cons piece pieces ih =>
    cases piece with
    | literal text =>
      obtain ⟨rest, inner, rfl⟩ := number_literal_eq_ok numbered
      rw [Piece.places, ← ih inner]
      rfl
    | occurrence name =>
      obtain ⟨_, rest, inner, rfl⟩ := number_occurrence_eq_ok numbered
      rw [Piece.places, ← ih inner]
      rfl

/-- Numbering keeps all occurrences. -/
theorem length_occurrences_of_number {position offset : Nat} {pieces : List Piece}
    (numbered : Segment.number config base position offset pieces = .ok segments) :
    (occurrencesOf segments).length = Piece.count pieces := by
  rw [← Piece.length_places position pieces, ← places_of_number numbered, List.length_map]

/-- Marks without occurrences are characters. -/
theorem exists_characters {marks : List Mark} (absent : marks.filterMap Mark.occurrence? = []) :
    ∃ text : Text, marks = text.map .character := by
  refine ⟨_, characters_of_no_occurrence fun found member => ?_⟩
  have none := List.filterMap_eq_nil_iff.mp absent _ member
  cases none

/-- Without occurrences it makes no difference how they are filled in. -/
theorem filledOf_of_no_occurrence {marks : List Mark} (absent : marks.filterMap Mark.occurrence? = [])
    (fill other : Occurrence → Text) : filledOf fill marks = filledOf other marks := by
  obtain ⟨text, rfl⟩ := exists_characters absent
  rw [filledOf_characters, filledOf_characters]

/-! ### A number for every occurrence -/

/-- The number that stands in for every occurrence: 10 to the power of 9. -/
def standIn : Text := ['1', '0', '0', '0', '0', '0', '0', '0', '0', '0']

/-- A piece of a source with the number in the place of an occurrence. -/
def Piece.withStandIn : Piece → Text
  | .literal text => text
  | .occurrence _ => standIn

/-- A source with the number in the place of every occurrence that is found in it. -/
def withStandIns (config : Config) (source : Text) : Text := (Piece.scan config source).flatMap Piece.withStandIn

theorem numeral_standIn : Numeral standIn where
  digits := List.all_eq_true.mp rfl
  first := nofun
  long := Nat.le_of_ble_eq_true rfl

theorem filledOf_standIn {position offset : Nat} {pieces : List Piece}
    (numbered : Segment.number config base position offset pieces = .ok segments) :
    filledOf (fun _ => standIn) (marksOf segments) = pieces.flatMap Piece.withStandIn := by
  induction pieces generalizing position offset segments with
  | nil =>
    obtain rfl := Except.ok.inj numbered
    rfl
  | cons piece pieces ih =>
    cases piece with
    | literal text =>
      obtain ⟨rest, inner, rfl⟩ := number_literal_eq_ok numbered
      rw [marksOf_cons, filledOf_append, ih inner, Segment.marks, filledOf_characters]
      rfl
    | occurrence name =>
      obtain ⟨_, rest, inner, rfl⟩ := number_occurrence_eq_ok numbered
      rw [marksOf_cons, filledOf_append, ih inner]
      rfl

/-- Marks with their codes, and with the number. -/
def Twins.withStandIn (marks : List Mark) : Twins where
  marks := marks
  left := Occurrence.encoded
  right _ := standIn

/-- The encoded document can be read if and only if the source with the number can. -/
theorem Encodes.parses_iff {marks : List Mark} (encodes : Encodes config source base marks) :
    (∃ root, Document.parse (filledOf Occurrence.encoded marks) = .ok root) ↔
      ∃ root, Document.parse (filledOf (fun _ => standIn) marks) = .ok root := by
  have numeric : (Twins.withStandIn marks).Numeric :=
    ⟨fun _ member => (encodes.usable member).numeral, fun _ _ => numeral_standIn⟩
  have parsed : Twins.SameResult _ _ (Document.parse (filledOf Occurrence.encoded marks))
      (Document.parse (filledOf (fun _ => standIn) marks)) := Twins.parse numeric
  generalize Document.parse (filledOf Occurrence.encoded marks) = result at parsed
  generalize Document.parse (filledOf (fun _ => standIn) marks) = result' at parsed
  cases parsed with
  | ok same => simp
  | error same => simp

/-! ### Acceptance -/

/-- A source without occurrences compiles to itself. -/
theorem compile_of_not_occursIn (tagged : config.emptyDelimiter? = none) (absent : ¬ config.OccursIn source)
    (divided : Segment.ofSource config source base = .ok segments) :
    ∃ compiled, Template.compile config source base = .ok compiled ∧ compiled.template.occurrences = [] ∧
      compiled.template.encoded = source ∧
      ∀ values, compiled.template.expandToText values = .ok source := by
  have none : occurrencesOf segments = [] := by
    rw [← List.length_eq_zero_iff, length_occurrences_of_number divided, Piece.count_scan_eq_zero_iff]
    exact absent
  have search : Template.findRaw config source segments = .ok [] := by rw [Template.findRaw, if_pos none]
  have plain : (marksOf (markRaw [] segments)).filterMap Mark.occurrence? = [] := by
    rw [← occurrencesOf_eq_filterMap, occurrencesOf_markRaw, none, List.map_nil]
  have encoded_eq : encodedOf (markRaw [] segments) = source := by
    rw [occurrencesOf_eq_filterMap] at none
    rw [encodedOf_markRaw, encodedOf_eq_filledOf,
      filledOf_of_no_occurrence none Occurrence.encoded (Occurrence.source config), ← source_eq_filledOf,
      Segment.source_of_ofSource divided]
  refine ⟨⟨⟨source, config, markRaw [] segments⟩, []⟩, ?_, ?_, encoded_eq, ?_⟩
  · simp only [Template.compile, tagged, divided, search]
  · rw [Template.occurrences, occurrencesOf_markRaw, none, List.map_nil]
  · intro values
    have given : ∀ found ∈ occurrencesOf (markRaw [] segments),
        ∃ text, values.get? found.context found.name = some text := by
      intro found member
      rw [occurrencesOf_eq_filterMap, plain] at member
      cases member
    rw [Template.expandToText_eq, Template.expand, expandAll_eq_ok given,
      filledOf_of_no_occurrence plain _ Occurrence.encoded, ← encodedOf_eq_filledOf, encoded_eq]

/-- A source with occurrences compiles if and only if it is a document with the number in their places. -/
theorem compile_iff_of_occursIn (tagged : config.emptyDelimiter? = none) (present : config.OccursIn source)
    (divided : Segment.ofSource config source base = .ok segments) (fits : Supply.fits source base = true)
    (bounded : base < Code.baseBound) :
    (∃ compiled, Template.compile config source base = .ok compiled) ↔
      ∃ root, Document.parse (withStandIns config source) = .ok root := by
  have some : occurrencesOf segments ≠ [] := by
    rw [ne_eq, ← List.length_eq_zero_iff, length_occurrences_of_number divided, Piece.count_scan_eq_zero_iff]
    exact not_not_intro present
  obtain ⟨encodes, _⟩ := encodes_of_ofSource fits bounded divided
  rw [withStandIns, ← filledOf_standIn divided, ← encodes.parses_iff, ← encodedOf_eq_filledOf]
  simp only [Template.compile, tagged, divided, Template.findRaw, if_neg some]
  cases Document.parse (encodedOf segments) with
  | ok root => simp
  | error error => simp

/-- An empty tag is what is wrong if and only if one is empty. -/
theorem compile_emptyDelimiter_iff {delimiter : Delimiter} :
    Template.compile config source base = .error (.emptyDelimiter delimiter) ↔
      config.emptyDelimiter? = some delimiter := by
  constructor
  · intro failed
    rcases compile_eq_error failed with ⟨found, empty, same⟩ | ⟨place, same⟩ | ⟨segments, failure, _, _, _, same⟩
    · obtain rfl := ParseError.emptyDelimiter.inj same
      exact empty
    · cases same
    · unfold Template.errorInSource at same
      split at same
      · cases same
      · cases same
  · intro empty
    simp only [Template.compile, empty]

/-- Making a template compiles the source with the base that is drawn. -/
theorem result_make (supply : Supply) : (Template.make config source supply).result =
    (Template.compile config source (Supply.draw source supply).base).map Compiled.template := by
  simp only [Template.make]
  cases Template.compile config source (Supply.draw source supply).base <;> rfl

/-- A template that is made was compiled with the base that is drawn. -/
theorem exists_compiled_of_make {supply : Supply} {template : Template}
    (made : (Template.make config source supply).result = .ok template) :
    ∃ compiled, Template.compile config source (Supply.draw source supply).base = .ok compiled ∧
      compiled.template = template := by
  rw [result_make] at made
  cases compiles : Template.compile config source (Supply.draw source supply).base with
  | error error => simp [compiles, Except.map] at made
  | ok compiled => exact ⟨compiled, rfl, by simpa [compiles, Except.map] using made⟩

/-- **Exactly the right sources compile.** Let there be no more occurrences than
codes. Making a template fails because of an empty tag if and only if one is empty,
the start tag first. Otherwise, if no occurrence stands in the source, the source
compiles to itself, and expands to itself whatever the values are. Otherwise it
compiles if and only if it is a relaxed document, nested within the limit, when
the same number stands in for each occurrence that is found. -/
theorem make_accepts_exactly {supply : Supply} (bounded : (Supply.draw source supply).base < Code.baseBound)
    (enough : Piece.count (Piece.scan config source) ≤ Code.limit) :
    (∀ delimiter, (Template.make config source supply).result = .error (.emptyDelimiter delimiter) ↔
      delimiter = .start ∧ config.startTag = [] ∨
        delimiter = .stop ∧ config.startTag ≠ [] ∧ config.endTag = []) ∧
    (config.startTag ≠ [] → config.endTag ≠ [] → ¬ config.OccursIn source →
      ∃ template, (Template.make config source supply).result = .ok template ∧ template.occurrences = [] ∧
        template.encoded = source ∧ ∀ values, template.expandToText values = .ok source) ∧
    (config.startTag ≠ [] → config.endTag ≠ [] → config.OccursIn source →
      ((∃ template, (Template.make config source supply).result = .ok template) ↔
        ∃ lexemes root, Denotes lexemes root ∧ textOf lexemes = withStandIns config source ∧
          root.depth ≤ depthLimit)) := by
  have fits := Supply.fits_draw source supply
  generalize base_eq : (Supply.draw source supply).base = base at fits bounded
  obtain ⟨segments, divided⟩ : ∃ segments, Segment.ofSource config source base = .ok segments :=
    number_exists (by rwa [Nat.zero_add])
  have tagged (start : config.startTag ≠ []) (stop : config.endTag ≠ []) : config.emptyDelimiter? = none :=
    Config.emptyDelimiter?_eq_none_iff.mpr ⟨start, stop⟩
  simp only [result_make, base_eq]
  refine ⟨fun delimiter => ?_, fun start stop absent => ?_, fun start stop present => ?_⟩
  · have same : (Template.compile config source base).map Compiled.template = .error (.emptyDelimiter delimiter) ↔
        Template.compile config source base = .error (.emptyDelimiter delimiter) := by
      cases Template.compile config source base <;> simp [Except.map]
    rw [same, compile_emptyDelimiter_iff, Config.emptyDelimiter?]
    by_cases start : config.startTag = []
    · simp [start, eq_comm]
    · by_cases stop : config.endTag = []
      · simp [start, stop, eq_comm]
      · simp [start, stop]
  · obtain ⟨compiled, compiles, none, encoded_eq, expands⟩ :=
      compile_of_not_occursIn (tagged start stop) absent divided
    exact ⟨compiled.template, by rw [compiles]; rfl, none, encoded_eq, expands⟩
  · rw [← parses_iff, ← compile_iff_of_occursIn (tagged start stop) present divided fits bounded]
    cases Template.compile config source base with
    | error error => simp [Except.map]
    | ok compiled => simp [Except.map]

theorem draw_sample : Supply.draw sampleSource ⟨[7], 1⟩ = ⟨[], 7, ⟨[], 1⟩⟩ := by
  rw [Supply.draw, if_pos (by decide)]

/-- The sample compiles, so it is a document with the number in place of its occurrences. -/
theorem sample_withStandIns : ∃ lexemes root, Denotes lexemes root ∧
    textOf lexemes = withStandIns sampleConfig sampleSource ∧ root.depth ≤ depthLimit := by
  have bounded : (Supply.draw sampleSource ⟨[7], 1⟩).base < Code.baseBound := by
    rw [draw_sample]
    decide
  have enough : Piece.count (Piece.scan sampleConfig sampleSource) ≤ Code.limit := by
    rw [← length_occurrences_of_number ofSource_sample]
    decide
  have present : sampleConfig.OccursIn sampleSource := ⟨['v'], by decide, ['\x7b'], sampleSource.drop 4, rfl⟩
  have made : (Template.make sampleConfig sampleSource ⟨[7], 1⟩).result =
      .ok ⟨sampleSource, sampleConfig, markRaw sampleRaw sampleSegments⟩ := by
    rw [result_make, draw_sample, compile_sample]
    rfl
  have accepted := (make_accepts_exactly bounded enough).2.2 (by decide) (by decide) present
  exact accepted.mp ⟨_, made⟩

end Stencil
