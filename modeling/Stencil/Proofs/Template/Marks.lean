import Mathlib.Data.List.Basic
import Stencil.Template.Basic

/-! The marks of a template: its literal characters one by one, and each of its
occurrences as one mark. The source and the encoded document are two ways to
fill in the same marks, so a place in one is a place in the other. Where an
occurrence stands among the marks determines its position and its code. -/
namespace Stencil

/-- A literal character of a template, or an occurrence. -/
inductive Mark where
  | character (char : Char)
  | occurrence (found : Occurrence)
deriving DecidableEq

namespace Mark

/-- The text of a mark, when `fill` tells what stands in the place of an occurrence. -/
def filled (fill : Occurrence → Text) : Mark → Text
  | .character char => [char]
  | .occurrence found => fill found

/-- The occurrence of a mark. -/
def occurrence? : Mark → Option Occurrence
  | .character _ => none
  | .occurrence found => some found

end Mark

/-- The marks of a segment. -/
def Segment.marks : Segment → List Mark
  | .literal text => text.map .character
  | .occurrence found => [.occurrence found]

/-- The marks of segments, in order. -/
def marksOf (segments : List Segment) : List Mark := segments.flatMap Segment.marks

/-- The text of marks, when `fill` tells what stands in the place of an occurrence. -/
def filledOf (fill : Occurrence → Text) (marks : List Mark) : Text := marks.flatMap (Mark.filled fill)

/-- An occurrence as it stands in the source. -/
def Occurrence.source (config : Config) (found : Occurrence) : Text :=
  config.startTag ++ found.name ++ config.endTag

/-- An occurrence as it stands in the encoded document. -/
def Occurrence.encoded (found : Occurrence) : Text := found.code.digits

@[simp] theorem marksOf_nil : marksOf [] = [] := rfl

@[simp] theorem marksOf_cons (segment : Segment) (rest : List Segment) :
    marksOf (segment :: rest) = segment.marks ++ marksOf rest := rfl

@[simp] theorem marksOf_append (front back : List Segment) :
    marksOf (front ++ back) = marksOf front ++ marksOf back := by simp [marksOf]

@[simp] theorem filledOf_nil (fill : Occurrence → Text) : filledOf fill [] = [] := rfl

@[simp] theorem filledOf_cons (fill : Occurrence → Text) (mark : Mark) (rest : List Mark) :
    filledOf fill (mark :: rest) = mark.filled fill ++ filledOf fill rest := rfl

@[simp] theorem filledOf_append (fill : Occurrence → Text) (front back : List Mark) :
    filledOf fill (front ++ back) = filledOf fill front ++ filledOf fill back := by simp [filledOf]

@[simp] theorem filledOf_characters (fill : Occurrence → Text) (text : Text) :
    filledOf fill (text.map .character) = text := by
  induction text with
  | nil => rfl
  | cons char rest ih => simp [ih, Mark.filled]

/-- The marks of a segment cover the same text of the encoded document. -/
theorem Segment.encoded_marks (segment : Segment) : filledOf Occurrence.encoded segment.marks = segment.encoded := by
  cases segment with
  | literal text => exact filledOf_characters _ text
  | occurrence found => simp [Segment.marks, Mark.filled, Occurrence.encoded, Segment.encoded]

/-- The marks of a segment cover the same text of the source. -/
theorem Segment.source_marks (config : Config) (segment : Segment) :
    filledOf (Occurrence.source config) segment.marks = segment.source config := by
  cases segment with
  | literal text => exact filledOf_characters _ text
  | occurrence found => simp [Segment.marks, Mark.filled, Occurrence.source, Segment.source]

/-- The encoded document fills in the codes. -/
theorem encodedOf_eq_filledOf (segments : List Segment) :
    encodedOf segments = filledOf Occurrence.encoded (marksOf segments) := by
  induction segments with
  | nil => rfl
  | cons segment rest ih =>
    rw [marksOf_cons, filledOf_append, ← ih, Segment.encoded_marks]
    rfl

/-- The source fills in the tags and names. -/
theorem source_eq_filledOf (config : Config) (segments : List Segment) :
    segments.flatMap (Segment.source config) = filledOf (Occurrence.source config) (marksOf segments) := by
  induction segments with
  | nil => rfl
  | cons segment rest ih => rw [List.flatMap_cons, marksOf_cons, filledOf_append, ← ih, Segment.source_marks]

@[simp] theorem occurrences_characters (text : Text) :
    (text.map Mark.character).filterMap Mark.occurrence? = [] := by
  simp [List.filterMap_eq_nil_iff, Mark.occurrence?]

theorem occurrencesOf_eq_filterMap (segments : List Segment) :
    occurrencesOf segments = (marksOf segments).filterMap Mark.occurrence? := by
  induction segments with
  | nil => rfl
  | cons segment rest ih =>
    rw [marksOf_cons, List.filterMap_append, ← ih]
    cases segment with
    | literal text =>
      rw [Segment.marks, occurrences_characters]
      rfl
    | occurrence found => simp [occurrencesOf, Segment.occurrence?, Segment.marks, Mark.occurrence?]

/-- Literal characters in front of an occurrence end before it. -/
theorem split_after_characters {text : Text} {rest front back : List Mark} {found : Occurrence}
    (split : text.map Mark.character ++ rest = front ++ .occurrence found :: back) :
    ∃ later, front = text.map .character ++ later ∧ rest = later ++ .occurrence found :: back := by
  rcases List.append_eq_append_iff.mp split with ⟨later, front_eq, rest_eq⟩ | ⟨inner, text_eq, tail_eq⟩
  · exact ⟨later, front_eq, rest_eq⟩
  · cases inner with
    | nil => exact ⟨[], by simpa using text_eq.symm, by simpa using tail_eq.symm⟩
    | cons mark inner =>
      have member : Mark.occurrence found ∈ text.map Mark.character := by
        rw [text_eq, (List.cons.inj tail_eq).1]
        simp
      simp at member

/-- Every occurrence among the marks has the position and the number of its
place: as many bytes of source stand in front of it as its position says, and
as many occurrences as its code counts. -/
def Numbered (config : Config) (base : Nat) (marks : List Mark) : Prop :=
  ∀ front found back, marks = front ++ .occurrence found :: back →
    found.position = Text.size (filledOf (Occurrence.source config) front) ∧
      found.code = ⟨base, (front.filterMap Mark.occurrence?).length⟩ ∧ found.code.offset < Code.limit

/-- Numbering a literal numbers what follows it. -/
theorem number_literal_eq_ok {config : Config} {base position offset : Nat} {text : Text} {pieces : List Piece}
    {segments : List Segment}
    (numbered : Segment.number config base position offset (.literal text :: pieces) = .ok segments) :
    ∃ rest, Segment.number config base (position + Text.size text) offset pieces = .ok rest ∧
      segments = .literal text :: rest := by
  rw [Segment.number] at numbered
  cases inner : Segment.number config base (position + Text.size text) offset pieces with
  | error error => simp [inner, Except.map] at numbered
  | ok rest => exact ⟨rest, rfl, by simpa [inner, Except.map, eq_comm] using numbered⟩

/-- Numbering an occurrence gives it its position and the next code. -/
theorem number_occurrence_eq_ok {config : Config} {base position offset : Nat} {name : Text} {pieces : List Piece}
    {segments : List Segment}
    (numbered : Segment.number config base position offset (.occurrence name :: pieces) = .ok segments) :
    offset < Code.limit ∧ ∃ rest,
      Segment.number config base (position + Text.size (Piece.source config (.occurrence name))) (offset + 1) pieces =
        .ok rest ∧ segments = .occurrence ⟨name, position, ⟨base, offset⟩, .string⟩ :: rest := by
  rw [Segment.number, Code.nth?] at numbered
  by_cases below : offset < Code.limit
  · rw [if_pos below] at numbered
    cases inner : Segment.number config base (position + Text.size (Piece.source config (.occurrence name)))
        (offset + 1) pieces with
    | error error => simp [inner, Except.map] at numbered
    | ok rest => exact ⟨below, rest, rfl, by simpa [inner, Except.map, eq_comm] using numbered⟩
  · rw [if_neg below] at numbered
    cases numbered

private theorem number_places {config : Config} {base position offset : Nat} {pieces : List Piece}
    {segments : List Segment} {front back : List Mark} {found : Occurrence}
    (numbered : Segment.number config base position offset pieces = .ok segments)
    (split : marksOf segments = front ++ .occurrence found :: back) :
    found.position = position + Text.size (filledOf (Occurrence.source config) front) ∧
      found.code = ⟨base, offset + (front.filterMap Mark.occurrence?).length⟩ ∧
        found.code.offset < Code.limit ∧ found.context = .string := by
  induction pieces generalizing position offset segments front with
  | nil =>
    obtain rfl := Except.ok.inj numbered
    simp at split
  | cons piece pieces ih =>
    cases piece with
    | literal text =>
      obtain ⟨rest, inner, rfl⟩ := number_literal_eq_ok numbered
      obtain ⟨later, rfl, rest_eq⟩ := split_after_characters split
      obtain ⟨place, code, below, context⟩ := ih inner rest_eq
      refine ⟨?_, ?_, below, context⟩
      · rw [place, filledOf_append, filledOf_characters, Text.size_append, Nat.add_assoc]
      · rw [code, List.filterMap_append, occurrences_characters, List.nil_append]
    | occurrence name =>
      obtain ⟨below, rest, inner, rfl⟩ := number_occurrence_eq_ok numbered
      rw [marksOf_cons, Segment.marks, List.singleton_append] at split
      cases front with
      | nil =>
        simp only [List.nil_append, List.cons.injEq, Mark.occurrence.injEq] at split
        obtain ⟨rfl, rfl⟩ := split
        exact ⟨by simp, by simp, below, rfl⟩
      | cons mark front =>
        simp only [List.cons_append, List.cons.injEq] at split
        obtain ⟨rfl, rest_eq⟩ := split
        obtain ⟨place, code_eq, below, context⟩ := ih inner rest_eq
        refine ⟨?_, ?_, below, context⟩
        · rw [place, filledOf_cons, Text.size_append, Nat.add_assoc]
          rfl
        · rw [code_eq]
          simp only [List.filterMap_cons, Mark.occurrence?, List.length_cons]
          congr 1
          omega

/-- The occurrences of a source are numbered by their places, and none is raw at first. -/
theorem numbered_of_ofSource {config : Config} {source : Text} {base : Nat} {segments : List Segment}
    (numbered : Segment.ofSource config source base = .ok segments) :
    Numbered config base (marksOf segments) ∧
      ∀ found, Mark.occurrence found ∈ marksOf segments → found.context = .string := by
  constructor
  · intro front found back split
    obtain ⟨place, code, below, _⟩ := number_places numbered split
    exact ⟨by simpa using place, by simpa using code, below⟩
  · intro found member
    obtain ⟨front, back, split⟩ := List.append_of_mem member
    exact (number_places numbered split).2.2.2

/-- Different places have different codes, so a code tells the place. -/
theorem Numbered.split_unique {config : Config} {base : Nat} {marks front back front' back' : List Mark}
    {found found' : Occurrence} (numbered : Numbered config base marks)
    (split : marks = front ++ .occurrence found :: back)
    (split' : marks = front' ++ .occurrence found' :: back') (same : found.code = found'.code) :
    front = front' ∧ found = found' ∧ back = back' := by
  obtain ⟨_, code, _⟩ := numbered front found back split
  obtain ⟨_, code', _⟩ := numbered front' found' back' split'
  have counts : (front.filterMap Mark.occurrence?).length = (front'.filterMap Mark.occurrence?).length := by
    have codes := code.symm.trans (same.trans code')
    exact (Code.mk.inj codes).2
  rcases List.append_eq_append_iff.mp (split.symm.trans split') with
    ⟨inner, rfl, tail⟩ | ⟨inner, rfl, tail⟩
  · cases inner with
    | nil => simpa using tail
    | cons mark inner =>
      rw [List.cons_append, List.cons.injEq] at tail
      rw [← tail.1] at counts
      simp [Mark.occurrence?] at counts
  · cases inner with
    | nil =>
      simp only [List.nil_append, List.cons.injEq, Mark.occurrence.injEq] at tail
      simp [tail]
    | cons mark inner =>
      rw [List.cons_append, List.cons.injEq] at tail
      rw [← tail.1] at counts
      simp [Mark.occurrence?] at counts

/-- What holds of every member of a list and every later one relates the list pairwise. -/
theorem pairwise_of_split {α : Type} {Relates : α → α → Prop} {list : List α}
    (relates : ∀ front earlier between later back,
      list = front ++ earlier :: (between ++ later :: back) → Relates earlier later) : list.Pairwise Relates := by
  induction list with
  | nil => exact .nil
  | cons first rest ih =>
    refine List.pairwise_cons.mpr ⟨fun later member => ?_, ih fun front earlier between later back split => ?_⟩
    · obtain ⟨between, back, rfl⟩ := List.append_of_mem member
      exact relates [] first between later back rfl
    · exact relates (first :: front) earlier between later back (by rw [split, List.cons_append])

/-- Occurrences ascend in their numbers, and in their positions unless the start tag is empty. -/
theorem Numbered.ascending {config : Config} {base : Nat} {marks : List Mark} (numbered : Numbered config base marks) :
    (marks.filterMap Mark.occurrence?).Pairwise fun earlier later => earlier.code.offset < later.code.offset ∧
      (config.startTag ≠ [] → earlier.position < later.position) := by
  refine List.pairwise_filterMap.mpr (pairwise_of_split fun front mark between mark' back split => ?_)
  intro earlier isEarlier later isLater
  cases mark with
  | character char => cases isEarlier
  | occurrence found =>
    cases mark' with
    | character char => cases isLater
    | occurrence found' =>
      obtain rfl := Option.some.inj isEarlier
      obtain rfl := Option.some.inj isLater
      obtain ⟨position, code, _⟩ := numbered front found (between ++ .occurrence found' :: back) split
      obtain ⟨position', code', _⟩ := numbered (front ++ .occurrence found :: between) found' back (by simp [split])
      refine ⟨?_, fun tagged => ?_⟩
      · rw [code, code', List.filterMap_append, List.length_append]
        simp [Mark.occurrence?]
      · have positive : Text.size config.startTag ≠ 0 := fun empty => tagged (Text.size_eq_zero_iff.mp empty)
        rw [position, position', filledOf_append, filledOf_cons, Mark.filled, Occurrence.source]
        simp only [Text.size_append]
        omega

end Stencil
