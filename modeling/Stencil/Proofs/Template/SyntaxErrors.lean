import Stencil.Proofs.Code.Order
import Stencil.Proofs.Template.ErrorPlaces
import Stencil.Proofs.Template.Leftmost

/-! Syntax errors of the encoded document in the source. The segments cover the
document one after the other, each for as many bytes as it has there, and the
offset of an error is looked up in the segment that holds it. It holds the offset
of a character that was found, which is a character of a literal or the first
digit of a code, and never a digit inside of a code. -/
namespace Stencil

open Document (SyntaxError)

variable {config : Config} {source : Text} {base : Nat} {segments : List Segment} {marks : List Mark}

/-! ### Offsets by ranges -/

/-- A span has as many bytes in the encoded document as its segment. -/
theorem Numbered.encodedSize {front back : List Mark} {segment : Segment}
    (numbered : Numbered config base (front ++ (segment.marks ++ back))) (start : Nat) :
    (segment.span config start).encodedSize = Text.size segment.encoded := by
  cases segment with
  | literal text => exact Nat.add_sub_cancel_left start (Text.size text)
  | occurrence found =>
    obtain ⟨_, _, below⟩ := numbered front found back rfl
    exact (Code.size_digits below).symm

/-- **The lookup by ranges is the lookup by segments** for the offsets that segments hold. -/
theorem Numbered.place? {front : List Mark} (numbered : Numbered config base (front ++ marksOf segments))
    {encodedStart offset : Nat} (behind : encodedStart ≤ offset) :
    Span.place? encodedStart offset (spansOf config (Text.size (filledOf (Occurrence.source config) front)) segments) =
      if offset < encodedStart + Text.size (encodedOf segments) then
        some (Segment.sourceOffset config (Text.size (filledOf (Occurrence.source config) front)) segments
          (offset - encodedStart))
      else none := by
  induction segments generalizing front encodedStart with
  | nil =>
    have beyond : ¬ offset < encodedStart + Text.size (encodedOf []) := Nat.not_lt.mpr behind
    rw [if_neg beyond]
    rfl
  | cons segment rest ih =>
    rw [marksOf_cons] at numbered
    have encoded_eq : Text.size (encodedOf (segment :: rest)) =
        Text.size segment.encoded + Text.size (encodedOf rest) := Text.size_append _ _
    rw [spansOf_cons, Span.place?, numbered.encodedSize, encoded_eq]
    by_cases inside : offset < encodedStart + Text.size segment.encoded
    · have within : offset - encodedStart < Text.size segment.encoded := by omega
      rw [if_pos inside, if_pos (by omega)]
      cases segment with
      | literal text => rw [Segment.sourceOffset, if_pos within]; rfl
      | occurrence found =>
        obtain ⟨position, _⟩ := numbered front found (marksOf rest) rfl
        rw [Segment.sourceOffset, if_pos within, ← position]
        rfl
    · have later := @ih (front ++ segment.marks) (by rwa [List.append_assoc])
        (encodedStart + Text.size segment.encoded) (Nat.le_of_not_lt inside)
      rw [filledOf_append, Segment.source_marks, Text.size_append, Nat.sub_add_eq, Nat.add_assoc] at later
      rw [if_neg inside, later, Segment.sourceOffset_beyond (by omega)]

/-! ### Marks and segments -/

/-- A literal character among the marks of segments belongs to a literal. -/
theorem segments_split_character {front back : List Mark} {character : Char}
    (split : marksOf segments = front ++ .character character :: back) :
    ∃ before read unread after, segments = before ++ .literal (read ++ character :: unread) :: after ∧
      front = marksOf before ++ read.map .character := by
  induction segments generalizing front with
  | nil => simp at split
  | cons segment rest ih =>
    cases segment with
    | literal text =>
      have beyond {later : List Mark} (rest_eq : marksOf rest = later ++ .character character :: back) :
          ∃ before read unread after,
            Segment.literal text :: rest = before ++ .literal (read ++ character :: unread) :: after ∧
            text.map Mark.character ++ later = marksOf before ++ read.map .character := by
        obtain ⟨before, read, unread, after, rfl, rfl⟩ := ih rest_eq
        exact ⟨.literal text :: before, read, unread, after, rfl, by simp [Segment.marks]⟩
      rcases List.append_eq_append_iff.mp split with ⟨later, rfl, rest_eq⟩ | ⟨inner, text_eq, back_eq⟩
      · exact beyond rest_eq
      · obtain ⟨read, unread, rfl, rfl, rfl⟩ := List.map_eq_append_iff.mp text_eq
        cases unread with
        | nil => simpa using @beyond [] back_eq.symm
        | cons other unread =>
          obtain ⟨same, _⟩ := List.cons.inj back_eq
          obtain rfl := Mark.character.inj same
          exact ⟨[], read, unread, rest, rfl, rfl⟩
    | occurrence found =>
      cases front with
      | nil => cases (List.cons.inj split).1
      | cons mark front =>
        obtain ⟨rfl, rest_eq⟩ := List.cons.inj split
        obtain ⟨before, read, unread, after, rfl, rfl⟩ := ih rest_eq
        exact ⟨.occurrence found :: before, read, unread, after, rfl, rfl⟩

/-- No place between two marks is inside of a code. -/
theorem outside_codes {front back : List Mark} {before after : List Segment} {found : Occurrence}
    (place : marksOf segments = front ++ back) (split : segments = before ++ .occurrence found :: after) :
    Text.size (filledOf Occurrence.encoded front) ≤ Text.size (encodedOf before) ∨
      Text.size (encodedOf before) + Text.size found.code.digits ≤ Text.size (filledOf Occurrence.encoded front) := by
  rw [split, marksOf_append, marksOf_cons] at place
  rw [encodedOf_eq_filledOf]
  rcases List.append_eq_append_iff.mp place with ⟨more, rfl, rest_eq⟩ | ⟨more, before_eq, _⟩
  · cases more with
    | nil => exact .inl (by simp)
    | cons mark more =>
      obtain ⟨rfl, _⟩ := List.cons.inj rest_eq
      right
      rw [filledOf_append, filledOf_cons, Text.size_append, Text.size_append]
      exact Nat.add_le_add_left (Nat.le_add_right _ _) _
  · left
    rw [before_eq, filledOf_append, Text.size_append]
    exact Nat.le_add_right _ _

/-! ### Places of errors -/

/-- Between two marks, the lookup by ranges finds the place in the source. -/
theorem Encodes.place?_between (encodes : Encodes config source base (marksOf segments)) {front back : List Mark}
    {mark : Mark} (split : marksOf segments = front ++ mark :: back) :
    Span.place? 0 (Text.size (filledOf Occurrence.encoded front)) (spansOf config 0 segments) =
      some (Text.size (filledOf (Occurrence.source config) front)) := by
  have looked := Numbered.place? (by simpa using encodes.numbered : Numbered config base ([] ++ marksOf segments))
    (Nat.zero_le (Text.size (filledOf Occurrence.encoded front)))
  have held : Text.size (filledOf Occurrence.encoded front) < 0 + Text.size (encodedOf segments) := by
    have positive : Text.size (filledOf Occurrence.encoded (mark :: back)) ≠ 0 := by
      intro empty
      exact head?_encoded_ne_none mark back (List.head?_eq_none_iff.mpr (Text.size_eq_zero_iff.mp empty))
    rw [encodedOf_eq_filledOf, split, filledOf_append, Text.size_append]
    omega
  rw [if_pos held, Nat.sub_zero, sourceOffset_between _ split (List.cons_ne_nil mark back)] at looked
  simpa using looked

/-- At the end of the encoded document the lookup finds nothing. -/
theorem Encodes.place?_end (encodes : Encodes config source base (marksOf segments)) :
    Span.place? 0 (Text.size (encodedOf segments)) (spansOf config 0 segments) = none := by
  have looked := Numbered.place? (by simpa using encodes.numbered : Numbered config base ([] ++ marksOf segments))
    (Nat.zero_le (Text.size (encodedOf segments)))
  rwa [if_neg (by omega)] at looked

/-- An error at a mark is shown at the character of the source that begins the mark there. -/
theorem Encodes.error_at_mark (encodes : Encodes config source base (marksOf segments)) (tagged : config.startTag ≠ [])
    {front back : List Mark} {mark : Mark} (split : marksOf segments = front ++ mark :: back) {error : SyntaxError}
    (position : error.position = Text.size (filledOf Occurrence.encoded front)) {character : Char}
    (found : error.found = some character) :
    ∃ shown later, (mark.filled (Occurrence.source config)).head? = some shown ∧
      source = filledOf (Occurrence.source config) front ++ shown :: later ∧
      Template.errorInSource config source segments error =
        .unexpectedCharacter (Text.size (filledOf (Occurrence.source config) front)) shown error.expected ∧
      Span.errorInSource? source (spansOf config 0 segments) error =
        some (.unexpectedCharacter (Text.size (filledOf (Occurrence.source config) front)) shown error.expected) := by
  obtain ⟨shown, later, first, division, error_eq⟩ :=
    encodes.errorInSource_at_mark tagged split position (found ▸ Option.some_ne_none character)
  refine ⟨shown, later, first, division, error_eq, ?_⟩
  rw [Span.errorInSource?, position, encodes.place?_between split, division, Option.getD_some, Text.cut?_append, found]
  rfl

/-- An error at the end of the encoded document is shown at the end of the source. -/
theorem Encodes.error_at_end (encodes : Encodes config source base (marksOf segments)) {error : SyntaxError}
    (position : error.position = Text.size (encodedOf segments)) (found : error.found = none) :
    Template.errorInSource config source segments error = .unexpectedEnd (Text.size source) error.expected ∧
      Span.errorInSource? source (spansOf config 0 segments) error =
        some (.unexpectedEnd (Text.size source) error.expected) := by
  constructor
  · simp only [Template.errorInSource, found]
  · have whole : Text.cut? source (Text.size source) = some (source, []) :=
      Text.cut?_eq_some_iff.mpr ⟨(List.append_nil source).symm, rfl⟩
    rw [Span.errorInSource?, position, encodes.place?_end, Option.getD_none, whole, found]

/-- How an offset of the encoded document where a character was found is mapped back
to a place of the source where one is shown. A place in a literal keeps its distance
from the beginning of the literal, and the characters are the same; the beginning of
a code becomes the position of its occurrence. -/
inductive MapsBack (config : Config) (segments : List Segment) (offset place : Nat) (found shown : Char) : Prop where
  | literal {before after : List Segment} {text : Text} (split : segments = before ++ .literal text :: after)
      (behind : Text.size (encodedOf before) ≤ offset)
      (inside : offset < Text.size (encodedOf before) + Text.size text)
      (place_eq : place = Text.size (before.flatMap (Segment.source config)) + (offset - Text.size (encodedOf before)))
      (same : found = shown) : MapsBack config segments offset place found shown
  | occurrence {before after : List Segment} {occurrence : Occurrence}
      (split : segments = before ++ .occurrence occurrence :: after) (offset_eq : offset = Text.size (encodedOf before))
      (place_eq : place = occurrence.position) : MapsBack config segments offset place found shown

/-- A place between two marks of the encoded document is mapped back to the place between them in the source. -/
theorem Numbered.mapsBack (numbered : Numbered config base (marksOf segments)) {front back : List Mark}
    {mark : Mark} (split : marksOf segments = front ++ mark :: back) {found shown : Char}
    (isFound : (filledOf Occurrence.encoded (mark :: back)).head? = some found)
    (isShown : (mark.filled (Occurrence.source config)).head? = some shown) :
    MapsBack config segments (Text.size (filledOf Occurrence.encoded front))
      (Text.size (filledOf (Occurrence.source config) front)) found shown := by
  cases mark with
  | character literal =>
    obtain ⟨before, read, unread, after, rfl, rfl⟩ := segments_split_character split
    have positive := literal.utf8Size_pos
    apply MapsBack.literal rfl
    · rw [encodedOf_eq_filledOf, filledOf_append, Text.size_append]
      exact Nat.le_add_right _ _
    · rw [encodedOf_eq_filledOf, filledOf_append, filledOf_characters]
      simp only [Text.size_append, Text.size_cons]
      omega
    · rw [source_eq_filledOf, encodedOf_eq_filledOf]
      simp only [filledOf_append, filledOf_characters, Text.size_append, Nat.add_sub_cancel_left]
    · exact (Option.some.inj isFound).symm.trans (Option.some.inj isShown)
  | occurrence occurrence =>
    obtain ⟨position, _⟩ := numbered front occurrence back split
    obtain ⟨before, after, rfl, rfl, rfl⟩ := segments_split split
    apply MapsBack.occurrence rfl
    · rw [encodedOf_eq_filledOf]
    · exact position.symm

/-- **Syntax errors are mapped back to the right place of the source.** Let the
encoded document of a source be none. The source does not compile, unless there
are no occurrences, and the error comes from looking its offset up in the ranges
of the segments, without breaking a character. The offset is never inside of a
code. What was found is in a segment: in a literal, and the place in the source
is that of the same character; or at the beginning of a code, and the place is
that of its occurrence. If nothing was found, the error is at the end. -/
theorem syntax_errors_mapped_back (tagged : config.emptyDelimiter? = none) (fits : Supply.fits source base = true)
    (bounded : base < Code.baseBound) (divided : Segment.ofSource config source base = .ok segments)
    {error : SyntaxError} (failed : Document.parse (encodedOf segments) = .error error) :
    (occurrencesOf segments ≠ [] →
      Template.compile config source base = .error (Template.errorInSource config source segments error)) ∧
    Span.errorInSource? source (spansOf config 0 segments) error =
      some (Template.errorInSource config source segments error) ∧
    (∀ before found after, segments = before ++ .occurrence found :: after →
      ¬ (Text.size (encodedOf before) < error.position ∧
        error.position < Text.size (encodedOf before) + Text.size found.code.digits)) ∧
    (∀ character, error.found = some character → ∃ front shown back, source = front ++ shown :: back ∧
      Template.errorInSource config source segments error =
        .unexpectedCharacter (Text.size front) shown error.expected ∧
      Span.place? 0 error.position (spansOf config 0 segments) = some (Text.size front) ∧
      MapsBack config segments error.position (Text.size front) character shown) ∧
    (error.found = none → error.position = Text.size (encodedOf segments) ∧
      Template.errorInSource config source segments error = .unexpectedEnd (Text.size source) error.expected) := by
  obtain ⟨startTag_ne, _⟩ := Config.emptyDelimiter?_eq_none_iff.mp tagged
  obtain ⟨encodes, _⟩ := encodes_of_ofSource fits bounded divided
  obtain ⟨front, back, split, position, found⟩ := encodes.error_place (encodedOf_eq_filledOf segments ▸ failed)
  have compile_eq : occurrencesOf segments ≠ [] →
      Template.compile config source base = .error (Template.errorInSource config source segments error) := by
    intro some
    simp only [Template.compile, tagged, divided, Template.findRaw, if_neg some, failed]
  have outside : ∀ before found after, segments = before ++ .occurrence found :: after →
      ¬ (Text.size (encodedOf before) < error.position ∧
        error.position < Text.size (encodedOf before) + Text.size found.code.digits) := by
    rintro before occurrence after isSegment ⟨behind, inside⟩
    rw [position] at behind inside
    rcases outside_codes split isSegment with notBehind | notInside
    · exact Nat.not_lt.mpr notBehind behind
    · exact Nat.not_lt.mpr notInside inside
  refine ⟨compile_eq, ?_⟩
  cases back with
  | nil =>
    rw [filledOf_nil, List.head?_nil] at found
    rw [List.append_nil] at split
    rw [← split, ← encodedOf_eq_filledOf] at position
    obtain ⟨atEnd, lookedUp⟩ := encodes.error_at_end position found
    refine ⟨by rw [lookedUp, atEnd], outside, ?_, fun _ => ⟨position, atEnd⟩⟩
    intro character isFound
    rw [found] at isFound
    cases isFound
  | cons mark back =>
    obtain ⟨character, isFound⟩ := Option.ne_none_iff_exists'.mp (found ▸ head?_encoded_ne_none mark back)
    obtain ⟨shown, later, first, division, atMark, lookedUp⟩ :=
      encodes.error_at_mark startTag_ne split position isFound
    rw [isFound] at found
    refine ⟨by rw [lookedUp, atMark], outside, ?_, ?_⟩
    · intro character' isFound'
      obtain rfl : character = character' := Option.some.inj (isFound.symm.trans isFound')
      refine ⟨_, shown, later, division, atMark, ?_, ?_⟩
      · rw [position, encodes.place?_between split]
      · rw [position]
        exact encodes.numbered.mapsBack split found.symm first
    · intro nothing
      rw [isFound] at nothing
      cases nothing

/-- The line break behind the occurrence is found thirteen bytes into the encoded document, and six into the source. -/
theorem line_break_mapped_back :
    Span.errorInSource? brokenSource (spansOf sampleConfig 0 brokenSegments) ⟨13, some '\n', .closingQuoteOrEscape⟩ =
      some (.unexpectedCharacter 6 '\n' .closingQuoteOrEscape) := by
  obtain ⟨compile_eq, lookedUp, _⟩ :=
    syntax_errors_mapped_back rfl (by decide) (by decide) ofSource_broken parse_broken
  have shown := compile_broken.symm.trans (compile_eq (by decide))
  rw [lookedUp, Except.error.inj shown]

end Stencil
