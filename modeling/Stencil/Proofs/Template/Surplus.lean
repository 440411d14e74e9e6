import Stencil.Proofs.Template.ErrorPlaces
import Stencil.Proofs.Template.Leftmost

/-! Occurrences without a code. When a source has more occurrences than there
are codes, the error is at the first one that gets none, and its range is one
byte long. The line of such an error can always be told. The error can be
underlined only if the start tag begins with a character of one byte, because
otherwise the range ends inside of that character. -/
namespace Stencil

variable {config : Config} {source : Text}

/-! ### The place of the error -/

/-- Only known names are found. -/
theorem Piece.known_of_mem_scan {text name : Text} (found : .occurrence name ∈ Piece.scan config text) :
    name ∈ config.names.toList := by
  fun_induction Piece.scan config text with
  | case1 => cases found
  | case2 character rest first afterEnd here ih =>
    rcases List.mem_cons.mp found with same | later
    · obtain rfl := Piece.occurrence.inj same
      exact (Config.eq_of_occurrence?_eq_some here).1
    · exact ih later
  | case3 character rest unfound ih =>
    apply ih
    unfold Piece.consLiteral at found
    split at found
    · rename_i pieces_eq
      rw [pieces_eq]
      simpa using found
    · simpa using found

/-- Numbering fails at one of the occurrences. -/
theorem split_of_number_eq_error {base start offset position limit : Nat} {pieces : List Piece}
    (failed : Segment.number config base start offset pieces = .error (.tooManyMacros position limit)) :
    ∃ before name after, pieces = before ++ .occurrence name :: after ∧
      position = start + Text.size (before.flatMap (Piece.source config)) := by
  induction pieces generalizing start offset with
  | nil => cases failed
  | cons piece pieces ih =>
    have further {offset : Nat} (failed : Segment.number config base (start + Text.size (piece.source config))
        offset pieces = .error (.tooManyMacros position limit)) :
        ∃ before name after, piece :: pieces = before ++ .occurrence name :: after ∧
          position = start + Text.size (before.flatMap (Piece.source config)) := by
      obtain ⟨before, name, after, rfl, position_eq⟩ := ih failed
      refine ⟨piece :: before, name, after, rfl, ?_⟩
      rw [List.flatMap_cons, Text.size_append, ← Nat.add_assoc]
      exact position_eq
    cases piece with
    | literal text =>
      rw [Segment.number, map_eq_error_iff] at failed
      exact further failed
    | occurrence name =>
      rw [Segment.number] at failed
      cases next : Code.nth? base offset with
      | none =>
        simp only [next, Except.error.injEq, ParseError.tooManyMacros.injEq] at failed
        exact ⟨[], name, pieces, rfl, failed.1.symm⟩
      | some code =>
        simp only [next, map_eq_error_iff] at failed
        exact further failed

/-- Where there is no code any more, there is an occurrence. -/
theorem occursAt_of_compile {base position limit : Nat}
    (failed : Template.compile config source base = .error (.tooManyMacros position limit)) :
    ∃ name, config.OccursAt source position name := by
  have numbering : Segment.ofSource config source base = .error (.tooManyMacros position limit) := by
    unfold Template.compile at failed
    split at failed
    · cases failed
    · split at failed
      · rename_i error divided
        rw [divided, Except.error.inj failed]
      · rename_i segments divided
        split at failed
        · rename_i error search
          unfold Template.findRaw at search
          split at search
          · cases search
          · split at search
            · cases search
            · have mapped := (Except.error.inj search).trans (Except.error.inj failed)
              unfold Template.errorInSource at mapped
              split at mapped <;> cases mapped
        · cases failed
  obtain ⟨before, name, after, pieces_eq, position_eq⟩ := split_of_number_eq_error numbering
  refine ⟨name, Config.occursAt_iff.mpr ⟨Piece.known_of_mem_scan (by rw [pieces_eq]; simp), ?_⟩⟩
  refine ⟨before.flatMap (Piece.source config), after.flatMap (Piece.source config), ?_, by simpa using position_eq⟩
  rw [← Piece.source_scan config source, pieces_eq]
  simp [Piece.source]

/-! ### What is shown -/

variable (width : Text → Nat)

/-- A line and, below it, carets that begin where the second part of the line does. -/
def SourceRange.underlined (lead rest : Text) (carets : Nat) : Text :=
  [' ', ' '] ++ (lead ++ rest) ++ ['\n'] ++ [' ', ' '] ++ List.replicate (width lead) ' ' ++
    List.replicate carets '^' ++ ['\n']

namespace SourceRange

/-- A range is underlined as far as it lies in the line in which it starts. -/
theorem highlight?_append (front back : Text) (stop : Nat) :
    highlight? (front ++ back) ⟨Text.size front, stop⟩ width =
      if widestLine < width (Text.lastLine front ++ Text.firstLine back) then some []
      else (Text.cut? (Text.firstLine back) (min (stop - Text.size front) (Text.size (Text.firstLine back)))).map
        fun (marked, _) => underlined width (Text.lastLine front) (Text.firstLine back) (max (width marked) 1) := by
  rw [highlight?, lineParts?_append]
  simp only [Option.bind_eq_bind, Option.bind_some, Option.pure_def]
  split
  · rfl
  · rw [Option.map_eq_bind]
    rfl

end SourceRange

/-- The place behind the first byte of a character is between two characters if
the character has no other bytes. -/
theorem Text.isBoundary_behind_byte (front back : Text) (character : Char) :
    isBoundary (bytes (front ++ character :: back)) (size front + 1) = true ↔ character.utf8Size = 1 := by
  rw [isBoundary_iff]
  constructor
  · rintro ⟨front', back', same, size_eq⟩
    obtain ⟨middle, rfl, back_eq⟩ := append_eq_of_size_le same (by omega)
    rw [size_append] at size_eq
    cases middle with
    | nil => simp at size_eq
    | cons first middle =>
      obtain ⟨rfl, _⟩ := List.cons.inj back_eq
      have positive := character.utf8Size_pos
      rw [size_cons] at size_eq
      omega
  · intro narrow
    exact ⟨front ++ [character], back, by simp, by simp [narrow]⟩

/-- The underlining of a character that the first line begins with: there is some
exactly if the character has no other bytes than the first. -/
theorem SourceRange.highlight?_first_byte (front back : Text) (character : Char) :
    highlight? (front ++ character :: back) ⟨Text.size front, Text.size front + 1⟩ width =
      if widestLine < width (Text.lastLine front ++ Text.firstLine (character :: back)) then some []
      else if character.utf8Size = 1 then
        some (underlined width (Text.lastLine front) (Text.firstLine (character :: back))
          (max (width (Text.firstLine [character])) 1))
      else none := by
  have positive := character.utf8Size_pos
  rw [highlight?_append, Nat.add_sub_cancel_left]
  congr 1
  by_cases breaks : Text.isLineBreak character = true
  · have narrow : character.utf8Size = 1 := by
      rcases (by simpa [Text.isLineBreak] using breaks : character = '\n' ∨ character = '\r') with rfl | rfl <;> rfl
    have stops (later : Text) : Text.firstLine (character :: later) = [] := by simp [Text.firstLine, breaks]
    rw [if_pos narrow, stops, stops, Text.size_nil, Nat.min_eq_right (Nat.zero_le 1), Text.cut?_zero]
    rfl
  · have goesOn (later : Text) : Text.firstLine (character :: later) = character :: Text.firstLine later := by
      simp [Text.firstLine, breaks]
    rw [goesOn, goesOn, Nat.min_eq_left (by rw [Text.size_cons]; omega)]
    split
    · rename_i narrow
      have cut : Text.cut? (character :: Text.firstLine back) 1 = some ([character], Text.firstLine back) :=
        Text.cut?_eq_some_iff.mpr ⟨rfl, by simp [narrow]⟩
      rw [cut]
      rfl
    · rename_i wide
      have uncut : Text.cut? (character :: Text.firstLine back) 1 = none := by
        rw [Text.cut?, if_neg (by omega)]
      rw [uncut]
      rfl

/-- **An occurrence without a code can be shown exactly if the start tag begins
with a character of one byte.** An error that there are too many occurrences is
at a place where one stands. At every such place the range of the error begins
at a character of the source, which is the first one of the start tag, and the
line there can be told. If that character has one byte, the error can be shown,
and the carets begin below the character. If not, the range ends inside of the
character, and the error cannot be shown unless its line is too wide to be. All
of this is so however many columns texts take up. -/
theorem surplus_shown_exactly (tagged : config.emptyDelimiter? = none) (source : Text) :
    (∀ base position limit, Template.compile config source base = .error (.tooManyMacros position limit) →
      ∃ name, config.OccursAt source position name) ∧
    ∀ position limit name, config.OccursAt source position name →
      let error := ParseError.tooManyMacros position limit
      let range : SourceRange := ⟨position, position + 1⟩
      ∃ first others front back, config.startTag = first :: others ∧ source = front ++ first :: back ∧
        position = Text.size front ∧ error.range? = some range ∧ range.stop ≤ Text.size source ∧
        (Text.isBoundary source.bytes range.stop = true ↔ first.utf8Size = 1) ∧
        error.line? source = some (Text.lastLine front ++ Text.firstLine (first :: back)) ∧
        (error.highlight? source width =
          if SourceRange.widestLine < width (Text.lastLine front ++ Text.firstLine (first :: back)) then some []
          else if first.utf8Size = 1 then
            some (SourceRange.underlined width (Text.lastLine front) (Text.firstLine (first :: back))
              (max (width (Text.firstLine [first])) 1))
          else none) ∧
        (first.utf8Size = 1 →
          range.ShowsAs width source (error.line? source) (error.highlight? source width)) := by
  refine ⟨fun base position limit => occursAt_of_compile, ?_⟩
  intro position limit name stands
  obtain ⟨startTag_ne, _⟩ := Config.emptyDelimiter?_eq_none_iff.mp tagged
  obtain ⟨first, others, tag_eq⟩ := List.exists_cons_of_ne_nil startTag_ne
  obtain ⟨_, front, after, source_eq, rfl⟩ := Config.occursAt_iff.mp stands
  rw [tag_eq, List.cons_append, List.cons_append, List.cons_append] at source_eq
  generalize others ++ name ++ config.endTag ++ after = back at source_eq
  subst source_eq
  have positive := first.utf8Size_pos
  refine ⟨first, others, front, back, tag_eq, rfl, rfl, rfl, ?_, ?_, ?_, ?_, ?_⟩
  · simp only [Text.size_append, Text.size_cons]
    omega
  · exact Text.isBoundary_behind_byte front back first
  · simp only [ParseError.line?, ParseError.range?, SourceRange.line?, SourceRange.lineParts?_append, Option.map_some]
  · exact SourceRange.highlight?_first_byte width front back first
  · intro narrow
    have split : front ++ first :: back = front ++ [first] ++ back := by simp
    exact SourceRange.showsAs_of_split width split rfl (by simp [narrow])

/-- The first occurrence of the sample can be underlined. -/
theorem surplus_of_sample : sampleConfig.OccursAt sampleSource 1 ['v'] ∧
    SourceRange.ShowsAs Text.width sampleSource ⟨1, 2⟩ ((ParseError.tooManyMacros 1 Code.limit).line? sampleSource)
      ((ParseError.tooManyMacros 1 Code.limit).highlight? sampleSource) := by
  have stands : sampleConfig.OccursAt sampleSource 1 ['v'] :=
    Config.occursAt_iff.mpr ⟨by decide, ['\x7b'], _, rfl, rfl⟩
  refine ⟨stands, ?_⟩
  obtain ⟨first, others, front, back, tag_eq, _, _, _, _, _, _, _, narrow⟩ :=
    (surplus_shown_exactly Text.width rfl sampleSource).2 1 Code.limit ['v'] stands
  obtain ⟨rfl, _⟩ := List.cons.inj tag_eq
  exact narrow rfl

/-- A configuration with the name `v` between quotation marks of two bytes each. -/
def guillemetConfig : Config := { names := Names.ofList [['v']], startTag := ['«'], endTag := ['»'] }

/-- At an occurrence that begins with a character of two bytes, the range ends
inside of that character, and the line with it cannot be underlined. -/
theorem wide_tag_not_shown :
    guillemetConfig.emptyDelimiter? = none ∧ guillemetConfig.OccursAt ['«', 'v', '»'] 0 ['v'] ∧
      (ParseError.tooManyMacros 0 Code.limit).range? = some ⟨0, 1⟩ ∧
      Text.isBoundary (Text.bytes ['«', 'v', '»']) 1 = false ∧
      (ParseError.tooManyMacros 0 Code.limit).highlight? ['«', 'v', '»'] = none :=
  ⟨rfl, Config.occursAt_iff.mpr ⟨by decide, [], [], rfl, rfl⟩, rfl, by decide, by decide +kernel⟩

end Stencil
