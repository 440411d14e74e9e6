import Stencil.Proofs.Document.Escapes
import Stencil.Proofs.Values.Leaves

/-! Occurrences and escape sequences. The digits of a code are plain characters
of the literal that they stand in, except behind the beginning of a `\u` escape
that lacks digits: there the first digits of the code complete the escape, and
nothing keeps such a source from compiling. Where no occurrence of a literal
stands behind such a beginning, a literal stays a literal whatever texts are
put into it. -/
namespace Stencil

open Document (Lexeme Node Contents InEscape IsEscape Unfinished Denotes textOf)

variable {config : Config} {source : Text} {base : Nat} {compiled : Compiled} {root : Node}
  {lexemes : List Lexeme} {marks outer inner rest before after : List Mark} {found : Occurrence}

/-! ### Literals among the marks -/

/-- A character that is no digit is literal wherever it stands in an encoded text,
because codes are made of digits. -/
theorem split_at_character {front back : Text} {character : Char} (noDigit : character.isDigit = false)
    (text_eq : filledOf Occurrence.encoded marks = front ++ character :: back) :
    ∃ first second, marks = first ++ .character character :: second ∧
      filledOf Occurrence.encoded first = front ∧ filledOf Occurrence.encoded second = back := by
  rcases cut_encoded text_eq with ⟨first, second, rfl, first_eq, second_eq⟩ |
    ⟨first, found, second, inside, tail, rfl, digits_eq, _, tail_ne, front_eq⟩
  · obtain ⟨later, rfl, later_eq⟩ := first_character second_eq noDigit
    exact ⟨first, later, rfl, first_eq, later_eq⟩
  · rw [filledOf_append, filledOf_cons, Mark.filled, Occurrence.encoded, digits_eq, front_eq] at text_eq
    simp only [List.append_assoc, List.append_cancel_left_eq] at text_eq
    obtain ⟨digit, more, rfl⟩ := List.exists_cons_of_ne_nil tail_ne
    obtain ⟨rfl, _⟩ := List.cons.inj text_eq
    have member : digit ∈ found.code.digits := by simp [digits_eq]
    have isDigit := Code.isDigit_of_mem_digits member
    rw [noDigit] at isDigit
    cases isDigit

/-- The marks between the quotes of a string literal or of a quoted key. -/
structure AreQuoted (lexemes : List Lexeme) (marks outer inner rest : List Mark) : Prop where
  division : marks = outer ++ .character '"' :: inner ++ .character '"' :: rest
  literal : ∃ earlier lexeme later, lexemes = earlier ++ lexeme :: later ∧
    filledOf Occurrence.encoded outer = textOf earlier ∧
    (lexeme = .string (filledOf Occurrence.encoded inner) ∨ lexeme = .quotedKey (filledOf Occurrence.encoded inner))

/-- The quotes of a string literal or of a quoted key are literal. -/
theorem exists_areQuoted {earlier later : List Lexeme} {lexeme : Lexeme} {contents : Text}
    (shape : lexeme = .string contents ∨ lexeme = .quotedKey contents)
    (text_eq : filledOf Occurrence.encoded marks = textOf (earlier ++ lexeme :: later)) :
    ∃ outer inner rest, AreQuoted (earlier ++ lexeme :: later) marks outer inner rest ∧
      filledOf Occurrence.encoded outer = textOf earlier ∧ filledOf Occurrence.encoded inner = contents := by
  have opened : filledOf Occurrence.encoded marks = textOf earlier ++ '"' :: (contents ++ '"' :: textOf later) := by
    rw [text_eq]
    rcases shape with rfl | rfl <;> simp [Lexeme.text]
  obtain ⟨outer, second, rfl, outer_eq, second_eq⟩ := split_at_character rfl opened
  obtain ⟨inner, rest, rfl, inner_eq, _⟩ := split_at_character rfl second_eq
  refine ⟨outer, inner, rest, ⟨by simp, earlier, lexeme, later, rfl, outer_eq, ?_⟩, outer_eq, inner_eq⟩
  rwa [inner_eq]

/-- What stands between quotes is quoted. -/
theorem AreQuoted.isQuoted {front : List Segment}
    (quoted : AreQuoted lexemes marks outer (before ++ .occurrence found :: after) rest)
    (place : marksOf front = outer ++ .character '"' :: before) : IsQuoted lexemes front found := by
  obtain ⟨_, earlier, lexeme, later, rfl, outer_eq, shape⟩ := quoted
  refine ⟨lexeme, _, Text.size (textOf earlier), shape, ⟨earlier, later, rfl, rfl⟩, ?_, ?_⟩
  · have quote : 0 < '"'.utf8Size := Char.utf8Size_pos _
    simp only [encodedOf_eq_filledOf, place, filledOf_append, filledOf_cons, Mark.filled, outer_eq,
      Text.size_append, Text.size_cons, Text.size_nil]
    omega
  · have quote : 0 < '"'.utf8Size := Char.utf8Size_pos _
    rcases shape with rfl | rfl <;>
    · simp only [encodedOf_eq_filledOf, place, filledOf_append, filledOf_cons, Mark.filled, outer_eq,
        Text.size_append, Text.size_cons, Text.size_nil, Lexeme.text, Occurrence.encoded, List.cons_append]
      omega

/-- What is quoted stands between quotes. -/
theorem exists_areQuoted_of_isQuoted {segments front back : List Segment}
    (text_eq : textOf lexemes = encodedOf segments) (split : segments = front ++ .occurrence found :: back)
    (quoted : IsQuoted lexemes front found) :
    ∃ outer inner rest before after, AreQuoted lexemes (marksOf segments) outer inner rest ∧
      inner = before ++ .occurrence found :: after ∧ marksOf front = outer ++ .character '"' :: before := by
  obtain ⟨lexeme, contents, start, shape, ⟨earlier, later, rfl, rfl⟩, begins, ends⟩ := quoted
  rw [encodedOf_eq_filledOf] at text_eq
  obtain ⟨outer, inner, rest, areQuoted, outer_eq, inner_eq⟩ := exists_areQuoted shape text_eq.symm
  have quote : '"'.utf8Size = 1 := rfl
  have digits : 0 < Text.size found.code.digits := by
    rw [Nat.pos_iff_ne_zero, ne_eq, Text.size_eq_zero_iff]
    exact found.code.digits_ne_nil
  have lexeme_size : Text.size lexeme.text = Text.size contents + 2 := by
    rcases shape with rfl | rfl <;>
    · simp only [Lexeme.text, List.cons_append, Text.size_cons, Text.size_append, Text.size_nil, quote]
      omega
  have division := areQuoted.division
  rw [split, marksOf_append, marksOf_cons, Segment.marks, List.singleton_append] at division
  rw [encodedOf_eq_filledOf] at begins ends
  rw [← outer_eq] at begins ends
  rcases List.append_eq_append_iff.mp division with ⟨part, within, found_eq⟩ | ⟨part, front_eq, _⟩
  · obtain ⟨after, rfl⟩ : ∃ after, part = .occurrence found :: after := by
      cases part with
      | nil => cases found_eq
      | cons mark after => exact ⟨after, by rw [(List.cons.inj found_eq).1]⟩
    rcases List.append_eq_append_iff.mp within with ⟨part, front_eq, inner_eq'⟩ | ⟨part, outer_eq', _⟩
    · cases part with
      | nil => cases inner_eq'
      | cons mark before =>
        obtain ⟨rfl, inner_eq''⟩ := List.cons.inj inner_eq'
        exact ⟨outer, inner, rest, before, after, areQuoted, inner_eq'', front_eq⟩
    · rw [outer_eq', filledOf_append, Text.size_append] at begins
      omega
  · rw [front_eq] at ends
    simp only [filledOf_append, filledOf_cons, Mark.filled, Text.size_append, Text.size_cons, Text.size_nil,
      inner_eq, lexeme_size, quote] at ends
    omega

/-! ### Codes and escape sequences -/

/-- The code of an occurrence between quotes belongs to no escape sequence:
whole characters and escape sequences stand on both sides of it. -/
structure IsClear (inner before after : List Mark) (found : Occurrence) : Prop where
  front : Contents (filledOf Occurrence.encoded before)
  back : Contents (filledOf Occurrence.encoded after)
  bytes : ∀ index < found.code.digits.length,
    ¬ InEscape (filledOf Occurrence.encoded inner) (Text.size (filledOf Occurrence.encoded before) + index)

/-- The code of an occurrence between quotes completes an escape sequence: right
in front of it the source has the beginning of a `\u` escape with digits of its
own, and the escape takes as many digits of the code as it lacks. -/
def CompletesEscape (inner before : List Mark) (found : Occurrence) : Prop :=
  ∃ earlier own, before = earlier ++ ('\\' :: 'u' :: own).map .character ∧
    Contents (filledOf Occurrence.encoded earlier) ∧ own.length < 4 ∧
    (∀ digit ∈ own, Text.isHexDigit digit = true) ∧
    ∀ index < found.code.digits.length,
      (InEscape (filledOf Occurrence.encoded inner) (Text.size (filledOf Occurrence.encoded before) + index) ↔
        own.length + index < 4)

/-- The beginning of an escape sequence is literal text, because it is shorter than a code. -/
theorem characters_of_unfinished {own : Text} (codes : ∀ found, .occurrence found ∈ before → 4 ≤ found.code.digits.length)
    (unfinished : Unfinished (filledOf Occurrence.encoded before) own) :
    ∃ earlier, before = earlier ++ ('\\' :: 'u' :: own).map .character ∧
      Contents (filledOf Occurrence.encoded earlier) := by
  obtain ⟨front, text_eq, proper, few, _⟩ := unfinished
  obtain ⟨earlier, second, rfl, rfl, second_eq⟩ := split_at_character rfl text_eq
  obtain ⟨later, rfl, later_eq⟩ := first_character second_eq rfl
  have plain : ∀ found, .occurrence found ∉ later := by
    intro found member
    have long := codes found (by simp [member])
    obtain ⟨first, last, rfl⟩ := List.append_of_mem member
    have lengths := congrArg List.length later_eq
    simp only [filledOf_append, filledOf_cons, Mark.filled, Occurrence.encoded, List.length_append] at lengths
    omega
  refine ⟨earlier, ?_, proper⟩
  rw [characters_of_no_occurrence plain, later_eq]
  rfl

/-- Between quotes a code is clear of escape sequences or completes one. -/
theorem clear_or_completes (encodes : Encodes config source base marks)
    (proper : Contents (filledOf Occurrence.encoded (before ++ .occurrence found :: after)))
    (members : ∀ mark ∈ before ++ .occurrence found :: after, mark ∈ marks) :
    (∀ whole, Contents whole → filledOf Occurrence.encoded before ≠ whole ++ ['\\']) ∧
      (IsClear (before ++ .occurrence found :: after) before after found ∨
        CompletesEscape (before ++ .occurrence found :: after) before found) := by
  have long (other : Occurrence) (member : .occurrence other ∈ marks) : 4 ≤ other.code.digits.length := by
    obtain ⟨_, offset_lt⟩ := encodes.codesOf other member
    have longer := Code.offsetWidth_lt_length_digits offset_lt
    rw [Code.offsetWidth] at longer
    omega
  have inner_eq : filledOf Occurrence.encoded (before ++ .occurrence found :: after) =
      filledOf Occurrence.encoded before ++ found.code.digits ++ filledOf Occurrence.encoded after := by
    simp [Mark.filled, Occurrence.encoded]
  have digits_run : ∀ digit ∈ found.code.digits, digit.isDigit = true := fun _ => Code.isDigit_of_mem_digits
  rw [inner_eq] at proper
  obtain ⟨back, noBackslash, cases⟩ := proper.digits_in_escapes digits_run (long found (members _ (by simp)))
  refine ⟨noBackslash, ?_⟩
  rcases cases with ⟨front, bytes⟩ | ⟨own, unfinished, bytes⟩
  · exact .inl ⟨front, back, by rwa [inner_eq]⟩
  · right
    have codes : ∀ other, .occurrence other ∈ before → 4 ≤ other.code.digits.length :=
      fun other member => long other (members _ (by simp [member]))
    obtain ⟨earlier, before_eq, whole⟩ := characters_of_unfinished codes unfinished
    obtain ⟨_, _, _, few, allHex⟩ := unfinished
    exact ⟨earlier, own, before_eq, whole, few, allHex, by rwa [inner_eq]⟩

/-- What stands between the quotes of a document are contents of a literal. -/
theorem AreQuoted.contents (areQuoted : AreQuoted lexemes marks outer inner rest) (denotes : Denotes lexemes root) :
    Contents (filledOf Occurrence.encoded inner) := by
  obtain ⟨_, earlier, lexeme, later, rfl, _, shape⟩ := areQuoted
  have between := Document.Phrase.proper denotes lexeme (by simp)
  rcases shape with rfl | rfl
  · exact between
  · exact between

/-- The code of an occurrence between quotes is no token of its own. -/
theorem context_of_isQuoted {front back : List Segment} (fits : Supply.fits source base = true)
    (bounded : base < Code.baseBound) (compiles : Template.compile config source base = .ok compiled)
    (parsed : Document.parse compiled.template.encoded = .ok root) (denotes : Denotes lexemes root)
    (text_eq : textOf lexemes = compiled.template.encoded)
    (split : compiled.template.segments = front ++ .occurrence found :: back)
    (quoted : IsQuoted lexemes front found) : found.context = .string := by
  have whole := isWholeToken_of_compile fits bounded compiles parsed denotes text_eq split
  cases context : found.context with
  | string => rfl
  | raw => exact absurd (whole.mp context) quoted.not_isWholeToken

/-- A literal in which every code is clear of escape sequences stays a literal. -/
theorem AreQuoted.contents_rendered {segments : List Segment} {values : Renderings}
    (areQuoted : AreQuoted lexemes (marksOf segments) outer inner rest)
    (contexts : ∀ front found back, segments = front ++ .occurrence found :: back →
      IsQuoted lexemes front found → found.context = .string)
    (proper : Contents (filledOf Occurrence.encoded inner))
    (clear : ∀ before found after, inner = before ++ .occurrence found :: after → IsClear inner before after found)
    (given : ∀ found, .occurrence found ∈ inner → ∃ value, values.inString found.name = some (Json.escape value)) :
    Contents (filledOf (Occurrence.rendering values) inner) := by
  refine Cell.contents_rendered ?_ given proper
  rintro before found after rfl
  refine ⟨?_, (clear before found after rfl).front⟩
  have division : marksOf segments =
      (outer ++ .character '"' :: before) ++ .occurrence found :: (after ++ .character '"' :: rest) := by
    rw [areQuoted.division]
    simp
  obtain ⟨front, back, segments_eq, place, _⟩ := segments_split division
  exact contexts front found back segments_eq (areQuoted.isQuoted place)

/-- A string literal in which an occurrence comes right after a backslash and the letter u. -/
def unfinishedSource : Text := ['"', '\\', 'u', '<', 'v', '>', '"']

/-- The segments of the source. -/
def unfinishedSegments : List Segment :=
  [.literal ['"', '\\', 'u'], .occurrence ⟨['v'], 3, ⟨7, 0⟩, .string⟩, .literal ['"']]

theorem compile_unfinished : Template.compile sampleConfig unfinishedSource 7 =
    .ok ⟨⟨unfinishedSource, sampleConfig, unfinishedSegments⟩, []⟩ := by
  have pieces : Piece.scan sampleConfig unfinishedSource =
      [.literal ['"', '\\', 'u'], .occurrence ['v'], .literal ['"']] := by cbv
  have divided : Segment.ofSource sampleConfig unfinishedSource 7 = .ok unfinishedSegments := by
    rw [Segment.ofSource, pieces]
    decide
  have encoded : encodedOf unfinishedSegments = ['"', '\\', 'u'] ++ sampleDigits '0' ++ ['"'] := by cbv
  have parsed : Document.parse (encodedOf unfinishedSegments) = .ok .other := by
    rw [encoded]
    rfl
  exact compile_of_parse rfl divided (List.cons_ne_nil _ _) parsed

/-- The contents of the literal in the encoded document. -/
def unfinishedContents : Text := ['\\', 'u'] ++ sampleDigits '0'

theorem contents_unfinished : Contents unfinishedContents :=
  .unicode rfl rfl rfl rfl (Document.contents_of_digits (List.all_eq_true.mp rfl))

/-- An escape sequence can take digits of a code: the literal compiles, the third
byte of its contents belongs to the code and to an escape sequence, and with a
value that has no hexadecimal digits the template expands to no document. -/
theorem escape_takes_code :
    Template.compile sampleConfig unfinishedSource 7 =
      .ok ⟨⟨unfinishedSource, sampleConfig, unfinishedSegments⟩, []⟩ ∧
    Denotes [.string unfinishedContents] .other ∧
    textOf [.string unfinishedContents] = encodedOf unfinishedSegments ∧
    IsQuoted [.string unfinishedContents] [.literal ['"', '\\', 'u']] ⟨['v'], 3, ⟨7, 0⟩, .string⟩ ∧
    InEscape unfinishedContents 2 ∧
    Template.expandToText ⟨unfinishedSource, sampleConfig, unfinishedSegments⟩
      (Renderings.ofDisplay fun _ => some ['z', 'z']) = .ok ['"', '\\', 'u', 'z', 'z', '"'] ∧
    ∀ root, Document.parse ['"', '\\', 'u', 'z', 'z', '"'] ≠ .ok root := by
  refine ⟨compile_unfinished, ?_, ?_, ?_, ?_, ?_, ?_⟩
  · exact (Document.Phrase.string contents_unfinished).spaced_value
  · cbv
  · have digits : Code.digits ⟨7, 0⟩ = sampleDigits '0' := by cbv
    refine ⟨_, _, 0, .inl rfl, ⟨[], [], rfl, rfl⟩, ?_, ?_⟩
    · decide
    · rw [digits]
      decide
  · exact ⟨[], ['\\', 'u', '7', '0', '0', '0'], ['0', '0', '0', '0', '0', '0'], rfl, .nil,
      .unicode rfl rfl rfl rfl, by decide, by decide⟩
  · cbv
  · intro root accepted
    cases accepted

/-- **What escape sequences take of codes.** Let a source with occurrences
compile, and let an occurrence have its code between the quotes of a string
literal or of a quoted key of the encoded document. The code does not come after
the backslash of an escape sequence. No byte of it belongs to an escape sequence,
unless the source has the beginning of a `\u` escape right in front of the
occurrence, with fewer than four digits of its own; then the escape takes as many
digits of the code as it lacks, and no more. A literal in which no code belongs
to an escape sequence stays a literal when texts are put into it. -/
theorem codes_and_escapes (fits : Supply.fits source base = true) (bounded : base < Code.baseBound)
    (compiles : Template.compile config source base = .ok compiled) (present : compiled.template.occurrences ≠ []) :
    ∃ root, Document.parse compiled.template.encoded = .ok root ∧
      (∃ lexemes, Denotes lexemes root ∧ textOf lexemes = compiled.template.encoded) ∧
      ∀ lexemes, Denotes lexemes root → textOf lexemes = compiled.template.encoded →
        (∀ front found back, compiled.template.segments = front ++ .occurrence found :: back →
          IsQuoted lexemes front found →
            ∃ outer inner rest before after,
              AreQuoted lexemes (marksOf compiled.template.segments) outer inner rest ∧
              inner = before ++ .occurrence found :: after ∧ marksOf front = outer ++ .character '"' :: before) ∧
        ∀ outer inner rest, AreQuoted lexemes (marksOf compiled.template.segments) outer inner rest →
          (∀ before found after, inner = before ++ .occurrence found :: after →
            (∀ whole, Contents whole → filledOf Occurrence.encoded before ≠ whole ++ ['\\']) ∧
            (IsClear inner before after found ∨ CompletesEscape inner before found)) ∧
          ((∀ before found after, inner = before ++ .occurrence found :: after → IsClear inner before after found) →
            ∀ values text, compiled.template.expandToText values = .ok text →
              (∀ found, .occurrence found ∈ inner →
                ∃ value, values.inString found.name = some (Json.escape value)) →
              Contents (filledOf (Occurrence.rendering values) inner) ∧
              text = filledOf (Occurrence.rendering values) outer ++
                '"' :: filledOf (Occurrence.rendering values) inner ++
                '"' :: filledOf (Occurrence.rendering values) rest) := by
  have encodes := encodes_of_compile fits bounded compiles
  obtain ⟨_, root, _, parsed, _⟩ := compile_eq_ok_of_occurrences compiles present
  refine ⟨root, parsed, Document.denotes_of_parse parsed, ?_⟩
  intro lexemes denotes text_eq
  refine ⟨fun front found back split quoted => exists_areQuoted_of_isQuoted text_eq split quoted, ?_⟩
  intro outer inner rest areQuoted
  have proper := areQuoted.contents denotes
  constructor
  · rintro before found after rfl
    apply clear_or_completes encodes proper
    intro mark member
    rw [areQuoted.division]
    exact List.mem_append_left _ (List.mem_append_right _ (List.mem_cons_of_mem _ member))
  · intro clear values text expands given
    have contexts : ∀ front found back, compiled.template.segments = front ++ .occurrence found :: back →
        IsQuoted lexemes front found → found.context = .string :=
      fun front found back split quoted =>
        context_of_isQuoted fits bounded compiles parsed denotes text_eq split quoted
    refine ⟨areQuoted.contents_rendered contexts proper clear given, ?_⟩
    rw [Template.expandToText_eq, Template.expand] at expands
    rw [expandAll_eq_ok (given_of_expandAll expands), areQuoted.division] at expands
    rw [← Except.ok.inj expands]
    simp [Mark.filled]

/-- A string literal in which an occurrence comes after an escaped backslash and the letter u. -/
def escapedSource : Text := ['"', '\\', '\\', 'u', '<', 'v', '>', '"']

/-- The occurrence in the literal. -/
def escapedOccurrence : Occurrence := ⟨['v'], 4, ⟨7, 0⟩, .string⟩

/-- The template of the literal. -/
def escapedTemplate : Template where
  source := escapedSource
  config := sampleConfig
  segments := [.literal ['"', '\\', '\\', 'u'], .occurrence escapedOccurrence, .literal ['"']]

theorem compile_escaped : Template.compile sampleConfig escapedSource 7 = .ok ⟨escapedTemplate, []⟩ := by
  have pieces : Piece.scan sampleConfig escapedSource =
      [.literal ['"', '\\', '\\', 'u'], .occurrence ['v'], .literal ['"']] := by cbv
  have divided : Segment.ofSource sampleConfig escapedSource 7 = .ok escapedTemplate.segments := by
    rw [Segment.ofSource, pieces]
    decide
  have encoded : encodedOf escapedTemplate.segments = ['"', '\\', '\\', 'u'] ++ sampleDigits '0' ++ ['"'] := by cbv
  have parsed : Document.parse (encodedOf escapedTemplate.segments) = .ok .other := by
    rw [encoded]
    rfl
  exact compile_of_parse rfl divided (List.cons_ne_nil _ _) parsed

/-- The backslash that is escaped begins no escape sequence, so the code is clear. -/
theorem clear_after_escaped_backslash :
    IsClear [.character '\\', .character '\\', .character 'u', .occurrence escapedOccurrence]
      [.character '\\', .character '\\', .character 'u'] [] escapedOccurrence := by
  have contents : Contents (['\\', '\\', 'u'] ++ escapedOccurrence.code.digits) :=
    .short rfl (.plain (by decide) (by decide) (by decide) (contents_digits _))
  have denotes : Denotes [.string (['\\', '\\', 'u'] ++ escapedOccurrence.code.digits)] .other :=
    (Document.Phrase.string contents).spaced_value
  obtain ⟨root, parsed, _, literals⟩ := codes_and_escapes (by decide) (by decide) compile_escaped (by decide)
  have text_eq : textOf [.string (['\\', '\\', 'u'] ++ escapedOccurrence.code.digits)] = escapedTemplate.encoded := by
    cbv
  obtain rfl : Node.other = root := denotes.root_eq (text_eq ▸ parsed)
  have areQuoted : AreQuoted [.string (['\\', '\\', 'u'] ++ escapedOccurrence.code.digits)]
      (marksOf escapedTemplate.segments) []
      [.character '\\', .character '\\', .character 'u', .occurrence escapedOccurrence] [] :=
    ⟨rfl, [], _, [], rfl, rfl, .inl (by simp [Mark.filled, Occurrence.encoded])⟩
  obtain ⟨codes, _⟩ := (literals _ denotes text_eq).2 _ _ _ areQuoted
  obtain ⟨_, clear | ⟨earlier, own, before_eq, whole, _⟩⟩ :=
    codes [.character '\\', .character '\\', .character 'u'] escapedOccurrence [] rfl
  · exact clear
  · obtain rfl : earlier = [.character '\\'] := by
      rcases earlier with _ | ⟨first, _ | ⟨second, more⟩⟩
      · simp at before_eq
      · obtain ⟨rfl, _⟩ := List.cons.inj before_eq
        rfl
      · have short := congrArg List.length before_eq
        simp at short
        omega
    have alone : Contents ['\\'] := whole
    cases alone with
    | plain _ noBackslash => exact absurd rfl noBackslash

end Stencil
