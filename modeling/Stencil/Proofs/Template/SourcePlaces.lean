import Stencil.Proofs.Code.Digits
import Stencil.Proofs.Template.Marks

/-! Places in the encoded document as places in the source: between the same
two marks, a place in the one is a place in the other. -/
namespace Stencil

variable {config : Config} {segments : List Segment} {front back : List Mark}

/-- An offset that the first segment does not hold is looked up in the others. -/
theorem Segment.sourceOffset_beyond {start offset : Nat} {segment : Segment} {rest : List Segment}
    (beyond : ¬ offset < Text.size segment.encoded) :
    Segment.sourceOffset config start (segment :: rest) offset =
      Segment.sourceOffset config (start + Text.size (segment.source config)) rest
        (offset - Text.size segment.encoded) := by
  cases segment <;> rw [Segment.sourceOffset, if_neg beyond]

/-- An offset behind the marks of the first segment is looked up in the others. -/
theorem Segment.sourceOffset_marks (start : Nat) (segment : Segment) (rest : List Segment) (later : List Mark) :
    Segment.sourceOffset config start (segment :: rest)
        (Text.size (filledOf Occurrence.encoded (segment.marks ++ later))) =
      Segment.sourceOffset config (start + Text.size (segment.source config)) rest
        (Text.size (filledOf Occurrence.encoded later)) := by
  have size_eq : Text.size (filledOf Occurrence.encoded (segment.marks ++ later)) =
      Text.size segment.encoded + Text.size (filledOf Occurrence.encoded later) := by
    rw [filledOf_append, Segment.encoded_marks, Text.size_append]
  rw [size_eq, Segment.sourceOffset_beyond (by omega), Nat.add_sub_cancel_left]

/-- The place between two marks of the encoded document is the place between
the same marks of the source. -/
theorem sourceOffset_between (start : Nat) (split : marksOf segments = front ++ back) (some : back ≠ []) :
    Segment.sourceOffset config start segments (Text.size (filledOf Occurrence.encoded front)) =
      start + Text.size (filledOf (Occurrence.source config) front) := by
  induction segments generalizing start front with
  | nil => exact absurd (List.append_eq_nil_iff.mp split.symm).2 some
  | cons segment rest ih =>
    have beyond {later : List Mark} (rest_eq : marksOf rest = later ++ back) :
        Segment.sourceOffset config start (segment :: rest)
            (Text.size (filledOf Occurrence.encoded (segment.marks ++ later))) =
          start + Text.size (filledOf (Occurrence.source config) (segment.marks ++ later)) := by
      rw [Segment.sourceOffset_marks, ih _ rest_eq, filledOf_append, Segment.source_marks, Text.size_append,
        Nat.add_assoc]
    cases segment with
    | literal text =>
      rcases List.append_eq_append_iff.mp split with ⟨later, rfl, rest_eq⟩ | ⟨inner, text_eq, back_eq⟩
      · exact beyond rest_eq
      · obtain ⟨before, after, rfl, rfl, rfl⟩ := List.map_eq_append_iff.mp text_eq
        cases after with
        | nil => simpa [Segment.marks] using @beyond [] back_eq.symm
        | cons character after =>
          have inside : Text.size before < Text.size (before ++ character :: after) := by
            have positive := character.utf8Size_pos
            simp only [Text.size_append, Text.size_cons]
            omega
          rw [Segment.sourceOffset, Segment.encoded, filledOf_characters, if_pos inside, filledOf_characters]
    | occurrence found =>
      cases front with
      | nil =>
        have positive : 0 < Text.size found.code.digits := by
          rw [Nat.pos_iff_ne_zero, ne_eq, Text.size_eq_zero_iff]
          exact found.code.digits_ne_nil
        rw [filledOf_nil, Text.size_nil, Segment.sourceOffset, Segment.encoded, if_pos positive]
        rfl
      | cons mark front =>
        obtain ⟨rfl, rest_eq⟩ := List.cons.inj split
        exact beyond rest_eq

/-- An error at a mark is shown at the same mark of the source, with the first character there. -/
theorem errorInSource_between {source : Text} {mark : Mark} {error : Document.SyntaxError}
    (source_eq : filledOf (Occurrence.source config) (marksOf segments) = source)
    (split : marksOf segments = front ++ mark :: back) {character : Char}
    (first : (mark.filled (Occurrence.source config)).head? = some character)
    (position : error.position = Text.size (filledOf Occurrence.encoded front)) (found : error.found ≠ none) :
    Template.errorInSource config source segments error =
      .unexpectedCharacter (Text.size (filledOf (Occurrence.source config) front)) character error.expected := by
  obtain ⟨shown, found⟩ := Option.ne_none_iff_exists'.mp found
  have place : Segment.sourceOffset config 0 segments error.position =
      Text.size (filledOf (Occurrence.source config) front) := by
    rw [position, sourceOffset_between 0 split (List.cons_ne_nil mark back), Nat.zero_add]
  have here : Text.charAt? source (Text.size (filledOf (Occurrence.source config) front)) = some character := by
    rw [← source_eq, split, filledOf_append, Text.charAt?, Text.cut?_append]
    simp [List.head?_append, first]
  simp only [Template.errorInSource, found, place, here, Option.getD_some]

end Stencil
