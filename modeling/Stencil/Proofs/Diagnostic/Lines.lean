import Mathlib.Data.List.TakeWhile
import Stencil.Diagnostic.Highlight
import Stencil.Proofs.Text.Bytes

/-! Ranges as they are shown. A line is a part of the source from one line break
to the next, without any in it, and every place between two characters is in
exactly one line, also the place of a line break, which ends its line. A range
from one place between characters to a later one can therefore always be shown,
wherever its line ends. -/
namespace Stencil

namespace Text

/-- No line break is in the text. -/
def Unbroken (text : Text) : Prop := ∀ character ∈ text, isLineBreak character = false

/-- A line starts behind the text: the text ends with a line break, or there is none of it. -/
def LineStartsAfter (text : Text) : Prop := ∀ character ∈ text.getLast?, isLineBreak character = true

/-- A line stops in front of the text: the text begins with a line break, or there is none of it. -/
def LineStopsBefore (text : Text) : Prop := ∀ character ∈ text.head?, isLineBreak character = true

/-- A line of a text, and a place in it or at its end. The line reaches from one
line break, or from the beginning of the text, to the next one, or to the end. -/
def IsLineAt (text : Text) (place : Nat) (line : Text) : Prop :=
  ∃ before after, text = before ++ line ++ after ∧ Unbroken line ∧ LineStartsAfter before ∧ LineStopsBefore after ∧
    size before ≤ place ∧ place ≤ size (before ++ line)

/-- A text in front of a line break is the first line. -/
theorem firstLine_append {line after : Text} (unbroken : Unbroken line) (broken : LineStopsBefore after) :
    firstLine (line ++ after) = line := by
  have goesOn : ∀ character ∈ line, (!isLineBreak character) = true := by
    intro character member
    rw [unbroken character member]
    rfl
  rw [firstLine, List.takeWhile_append_of_pos goesOn]
  cases after with
  | nil => simp
  | cons character after =>
    have stops : isLineBreak character = true := broken character rfl
    simp [stops]

/-- A text behind a line break is the last line. -/
theorem lastLine_append {before line : Text} (ends : LineStartsAfter before) (unbroken : Unbroken line) :
    lastLine (before ++ line) = line := by
  have backwards : firstLine (line.reverse ++ before.reverse) = line.reverse := by
    apply firstLine_append
    · intro character member
      exact unbroken character (List.mem_reverse.mp member)
    · intro character first
      rw [List.head?_reverse] at first
      exact ends character first
  rw [firstLine] at backwards
  rw [lastLine, List.reverse_append, backwards, List.reverse_reverse]

/-- The first line is followed by a line break, or by nothing. -/
theorem firstLine_split (text : Text) :
    Unbroken (firstLine text) ∧ ∃ after, text = firstLine text ++ after ∧ LineStopsBefore after := by
  constructor
  · intro character member
    simpa using List.mem_takeWhile_imp member
  · refine ⟨_, List.takeWhile_append_dropWhile.symm, ?_⟩
    intro character first
    have stops := List.head?_dropWhile_not (fun character => !isLineBreak character) text
    rw [Option.mem_def] at first
    rw [first] at stops
    simpa using stops

/-- The last line stands behind a line break, or behind nothing. -/
theorem lastLine_split (text : Text) :
    Unbroken (lastLine text) ∧ ∃ before, text = before ++ lastLine text ∧ LineStartsAfter before := by
  obtain ⟨unbroken, after, backwards, broken⟩ := firstLine_split text.reverse
  constructor
  · intro character member
    exact unbroken character (List.mem_reverse.mp member)
  · refine ⟨after.reverse, ?_, ?_⟩
    · have forwards : text = after.reverse ++ (firstLine text.reverse).reverse := by
        rw [← List.reverse_append, ← backwards, List.reverse_reverse]
      exact forwards
    · intro character last
      rw [List.getLast?_reverse] at last
      exact broken character last

/-- The longer of two beginnings of a text continues the shorter one. -/
theorem append_eq_of_size_le {front back front' back' : Text} (same : front ++ back = front' ++ back')
    (shorter : size front ≤ size front') : ∃ middle, front' = front ++ middle ∧ back = middle ++ back' := by
  rcases List.append_eq_append_iff.mp same with division | ⟨middle, rfl, rfl⟩
  · exact division
  · rw [size_append] at shorter
    have empty : middle = [] := size_eq_zero_iff.mp (by omega)
    exact ⟨[], by simp [empty], by simp [empty]⟩

/-- **Every place between two characters is in one line,** and it divides the
line into the last line before it and the first line behind it. -/
theorem isLineAt_iff {front back line : Text} :
    IsLineAt (front ++ back) (size front) line ↔ line = lastLine front ++ firstLine back := by
  constructor
  · rintro ⟨before, after, text_eq, unbroken, ends, broken, begun, reached⟩
    obtain ⟨lead, rfl, line_eq⟩ := append_eq_of_size_le (by rw [text_eq, List.append_assoc]) begun
    have shorter : size lead ≤ size line := by
      rw [size_append, size_append] at reached
      omega
    obtain ⟨rest, rfl, rfl⟩ := append_eq_of_size_le line_eq.symm shorter
    rw [lastLine_append ends fun character member => unbroken character (List.mem_append_left _ member),
      firstLine_append (fun character member => unbroken character (List.mem_append_right _ member)) broken]
  · rintro rfl
    obtain ⟨leadUnbroken, before, front_eq, ends⟩ := lastLine_split front
    obtain ⟨restUnbroken, after, back_eq, broken⟩ := firstLine_split back
    refine ⟨before, after, ?_, ?_, ends, broken, ?_, ?_⟩
    · conv_lhs => rw [front_eq, back_eq]
      simp
    · intro character member
      rcases List.mem_append.mp member with member | member
      · exact leadUnbroken character member
      · exact restUnbroken character member
    · conv_rhs => rw [front_eq]
      simp
    · conv_lhs => rw [front_eq]
      simp only [size_append]
      omega

end Text

namespace SourceRange

variable (width : Text → Nat)

/-- What there is to see of a range in its source. The range lies in the source,
from one boundary of characters to another. There is one line in which it starts.
The line is shown with carets below it, or not at all if it is too wide. -/
structure ShowsAs (source : Text) (range : SourceRange) (line? highlight? : Option Text) : Prop where
  ordered : range.start ≤ range.stop
  inside : range.stop ≤ Text.size source
  startsAtBoundary : Text.isBoundary (Text.bytes source) range.start = true
  stopsAtBoundary : Text.isBoundary (Text.bytes source) range.stop = true
  shown : ∃ line, line? = some line ∧ (∀ other, Text.IsLineAt source range.start other ↔ other = line) ∧
    if widestLine < width line then highlight? = some []
    else ∃ spaces carets, 0 < carets ∧ highlight? = some ([' ', ' '] ++ line ++ ['\n'] ++ [' ', ' '] ++
      List.replicate spaces ' ' ++ List.replicate carets '^' ++ ['\n'])

/-- The place at which a range starts divides its line. -/
theorem lineParts?_append (front back : Text) (stop : Nat) :
    lineParts? (front ++ back) ⟨Text.size front, stop⟩ = some (Text.lastLine front, Text.firstLine back) := by
  rw [lineParts?, Text.cut?_append]
  rfl

/-- The part of a range that lies in its line ends at a boundary: where the range
ends, or where the line does. -/
theorem cut?_firstLine (inside after : Text) :
    ∃ marked rest, Text.cut? (Text.firstLine (inside ++ after))
      (min (Text.size inside) (Text.size (Text.firstLine (inside ++ after)))) = some (marked, rest) := by
  obtain ⟨_, beyond, text_eq, _⟩ := Text.firstLine_split (inside ++ after)
  by_cases fits : Text.size inside ≤ Text.size (Text.firstLine (inside ++ after))
  · obtain ⟨rest, line_eq, _⟩ := Text.append_eq_of_size_le text_eq fits
    refine ⟨inside, rest, ?_⟩
    rw [Nat.min_eq_left fits, line_eq, Text.cut?_append]
  · refine ⟨Text.firstLine (inside ++ after), [], ?_⟩
    rw [Nat.min_eq_right (Nat.le_of_not_le fits), Text.cut?_eq_some_iff]
    exact ⟨by simp, rfl⟩

/-- **A part of the source can be shown,** whatever it is made of. -/
theorem showsAs_of_split {source before inside after : Text} (split : source = before ++ inside ++ after)
    {range : SourceRange} (starts : range.start = Text.size before)
    (stops : range.stop = Text.size (before ++ inside)) :
    range.ShowsAs width source (range.line? source) (range.highlight? source width) := by
  obtain ⟨start, stop⟩ := range
  obtain rfl : start = _ := starts
  obtain rfl : stop = _ := stops
  subst split
  have parts : lineParts? (before ++ inside ++ after) ⟨Text.size before, Text.size (before ++ inside)⟩ =
      some (Text.lastLine before, Text.firstLine (inside ++ after)) := by
    rw [List.append_assoc]
    exact lineParts?_append before (inside ++ after) _
  refine ⟨?_, ?_, ?_, ?_, Text.lastLine before ++ Text.firstLine (inside ++ after), ?_, ?_, ?_⟩
  · simp
  · simp
  · rw [List.append_assoc]
    exact Text.isBoundary_append before (inside ++ after)
  · exact Text.isBoundary_append (before ++ inside) after
  · rw [line?, parts]
    rfl
  · intro other
    rw [List.append_assoc]
    exact Text.isLineAt_iff
  · obtain ⟨marked, rest, cut⟩ := cut?_firstLine inside after
    have length_eq : Text.size (before ++ inside) - Text.size before = Text.size inside := by simp
    rw [highlight?, parts]
    simp only [Option.bind_eq_bind, Option.bind_some, length_eq, cut, Option.pure_def]
    split
    · rfl
    · exact ⟨width (Text.lastLine before), max (width marked) 1, by omega, rfl⟩

end SourceRange
end Stencil
