import Stencil.Template.Reading
import Stencil.Values.Basic
import Stencil.Proofs.Json.StringLiterals
import Stencil.Proofs.Template.Acceptance

/-! Values in string literals. A string literal is written with occurrences
between its parts, each of which is the contents of a string literal by itself.
The occurrences that are found divide the marks of the template into the same
parts, their codes are read as part of the string, and the literal with the
escaped values means what its parts mean with the values between them. -/
namespace Stencil

open Document (Contents)
open Json (Spells)

/-! ### Literals with occurrences -/

/-- An occurrence in a string literal, and the part of the literal behind it. -/
structure Splice where
  name : Text
  /-- The part up to the next occurrence, or up to the closing quote, as written. -/
  part : Text
  /-- The text that the part means. -/
  meant : Text

namespace Splice

/-- An occurrence and the part behind it in the source. -/
def source (config : Config) (splice : Splice) : Text :=
  config.startTag ++ splice.name ++ config.endTag ++ splice.part

/-- The names and the places of the occurrences, of which the first begins at a byte offset. -/
def places (config : Config) : (start : Nat) → List Splice → List (Text × Nat)
  | _, [] => []
  | start, splice :: rest =>
    (splice.name, start) :: places config (start + Text.size (splice.source config)) rest

end Splice

/-- A string literal that begins with a part and goes on with occurrences. -/
def literalSource (config : Config) (first : Text) (splices : List Splice) : Text :=
  '"' :: first ++ (splices.flatMap (Splice.source config) ++ ['"'])

/-- What a string literal means when its occurrences have these values. -/
def literalMeaning (value : Text → Text) (meant : Text) (splices : List Splice) : Text :=
  meant ++ splices.flatMap fun splice => value splice.name ++ splice.meant

/-- A source that is spliced as intended: the parts are contents of string literals
by themselves, and the occurrences that are found are those between them. -/
structure IsSpliced (config : Config) (first meant : Text) (splices : List Splice) : Prop where
  isLiteral : Json.parse ('"' :: first ++ ['"']) = .ok (.string meant)
  areLiterals : ∀ splice ∈ splices, Json.parse ('"' :: splice.part ++ ['"']) = .ok (.string splice.meant)
  found : Piece.places config 0 (Piece.scan config (literalSource config first splices)) =
    Splice.places config (Text.size ('"' :: first)) splices

variable {config : Config} {base : Nat} {first meant : Text} {splices : List Splice} {segments : List Segment}

theorem Splice.length_places (start : Nat) (splices : List Splice) :
    (Splice.places config start splices).length = splices.length := by
  induction splices generalizing start with
  | nil => rfl
  | cons splice rest ih => rw [Splice.places, List.length_cons, List.length_cons, ih]

/-! ### The marks of a literal -/

/-- Marks that are occurrences with their parts behind them. -/
inductive Woven : List Mark → List Splice → Prop where
  | nil : Woven [] []
  | cons {found : Occurrence} {splice : Splice} {marks : List Mark} {rest : List Splice}
      (same : found.name = splice.name) (later : Woven marks rest) :
      Woven (.occurrence found :: (splice.part.map .character ++ marks)) (splice :: rest)

/-- Occurrences at the places of the splices divide the marks as the splices do. -/
theorem woven_of_places {done rest : List Mark} {lead : Text} (numbered : Numbered config base (done ++ rest))
    (source_eq : filledOf (Occurrence.source config) rest =
      lead ++ (splices.flatMap (Splice.source config) ++ ['"']))
    (places : (rest.filterMap Mark.occurrence?).map (fun found => (found.name, found.position)) =
      Splice.places config (Text.size (filledOf (Occurrence.source config) done) + Text.size lead) splices) :
    ∃ inner, rest = lead.map .character ++ (inner ++ [.character '"']) ∧ Woven inner splices := by
  induction splices generalizing done rest lead with
  | nil =>
    obtain ⟨text, rfl⟩ := exists_characters (List.map_eq_nil_iff.mp places)
    rw [filledOf_characters] at source_eq
    exact ⟨[], by simp [source_eq], .nil⟩
  | cons splice splices ih =>
    obtain ⟨found, more, occurrences, place, later⟩ := List.map_eq_cons_iff.mp places
    obtain ⟨name_eq, position_eq⟩ := Prod.mk.inj place
    obtain ⟨before, mark, after, rfl, absent, isFound, rfl⟩ := List.filterMap_eq_cons_iff.mp occurrences
    obtain ⟨text, rfl⟩ := exists_characters (List.filterMap_eq_nil_iff.mpr absent)
    cases mark with
    | character char => cases isFound
    | occurrence other =>
      obtain rfl := Option.some.inj isFound
      obtain ⟨position, _⟩ := numbered (done ++ text.map .character) other after (by simp)
      rw [position_eq, filledOf_append, filledOf_characters, Text.size_append] at position
      rw [filledOf_append, filledOf_characters] at source_eq
      obtain ⟨rfl, tail_eq⟩ := Text.append_inj_of_size source_eq (by omega)
      have after_eq : filledOf (Occurrence.source config) after =
          splice.part ++ (splices.flatMap (Splice.source config) ++ ['"']) := by
        rw [filledOf_cons, Mark.filled, Occurrence.source, name_eq, List.flatMap_cons, Splice.source] at tail_eq
        simpa using tail_eq
      have numbered' : Numbered config base ((done ++ text.map .character ++ [.occurrence other]) ++ after) := by
        simpa using numbered
      have places' : (after.filterMap Mark.occurrence?).map (fun found => (found.name, found.position)) =
          Splice.places config (Text.size (filledOf (Occurrence.source config)
            (done ++ text.map .character ++ [.occurrence other])) + Text.size splice.part) splices := by
        rw [later]
        congr 1
        simp [Mark.filled, Occurrence.source, Splice.source, name_eq]
        omega
      obtain ⟨inner, rfl, woven⟩ := ih numbered' after_eq places'
      exact ⟨.occurrence other :: (splice.part.map .character ++ inner), by simp, .cons name_eq woven⟩

/-- Filling in the occurrences by their names fills in the splices. -/
theorem Woven.filledOf {marks : List Mark} (woven : Woven marks splices) {fill : Occurrence → Text}
    (value : Text → Text) (byName : ∀ found, .occurrence found ∈ marks → fill found = value found.name) :
    Stencil.filledOf fill marks = splices.flatMap fun splice => value splice.name ++ splice.part := by
  induction woven with
  | nil => rfl
  | @cons found splice marks rest same _ ih =>
    have here := byName found (by simp)
    have later := ih fun other member => byName other (by simp [member])
    rw [filledOf_cons, filledOf_append, filledOf_characters, later, Mark.filled, here, same, List.flatMap_cons,
      List.append_assoc]

/-- The occurrences have the names of the splices. -/
theorem Woven.exists_splice {marks : List Mark} (woven : Woven marks splices) {found : Occurrence}
    (member : .occurrence found ∈ marks) : ∃ splice ∈ splices, splice.name = found.name := by
  induction woven with
  | nil => cases member
  | @cons other splice marks rest same _ ih =>
    simp only [List.mem_cons, Mark.occurrence.injEq, List.mem_append, List.mem_map, reduceCtorEq, and_false,
      exists_false, false_or] at member
    rcases member with rfl | member
    · exact ⟨splice, by simp, same.symm⟩
    · obtain ⟨splice, known, name_eq⟩ := ih member
      exact ⟨splice, List.mem_cons_of_mem _ known, name_eq⟩

/-! ### Sources that are spliced as intended -/

namespace IsSpliced

/-- The parts mean something. -/
theorem spells (isSpliced : IsSpliced config first meant splices) :
    Spells first meant ∧ ∀ splice ∈ splices, Spells splice.part splice.meant := by
  constructor
  · exact Json.parse_quoted_iff.mp isSpliced.isLiteral
  · intro splice known
    exact Json.parse_quoted_iff.mp (isSpliced.areLiterals splice known)

theorem count_scan (isSpliced : IsSpliced config first meant splices) :
    Piece.count (Piece.scan config (literalSource config first splices)) = splices.length := by
  rw [← Piece.length_places 0, isSpliced.found, Splice.length_places]

theorem places (isSpliced : IsSpliced config first meant splices)
    (divided : Segment.ofSource config (literalSource config first splices) base = .ok segments) :
    (occurrencesOf segments).map (fun found => (found.name, found.position)) =
      Splice.places config (Text.size ('"' :: first)) splices := by
  rw [places_of_number divided, isSpliced.found]

/-- The marks are the first part, occurrences with their parts, and the closing quote. -/
theorem woven (isSpliced : IsSpliced config first meant splices)
    (divided : Segment.ofSource config (literalSource config first splices) base = .ok segments) :
    ∃ inner, marksOf segments = ('"' :: first).map .character ++ (inner ++ [.character '"']) ∧
      Woven inner splices := by
  have numbered : Numbered config base ([] ++ marksOf segments) := (numbered_of_ofSource divided).1
  apply woven_of_places numbered
  · rw [← source_eq_filledOf, Segment.source_of_ofSource divided, literalSource]
  · rw [← occurrencesOf_eq_filterMap, isSpliced.places divided, filledOf_nil, Text.size_nil, Nat.zero_add]

end IsSpliced

/-! ### Compiling a literal -/

/-- Marking nothing leaves the segments as they are. -/
theorem markRaw_nil (segments : List Segment) : markRaw [] segments = segments := by
  unfold markRaw
  conv_rhs => rw [← List.map_id segments]
  refine List.map_congr_left fun segment _ => ?_
  cases segment <;> rfl

/-- Codes between parts of string literals make the contents of a string literal. -/
theorem Woven.contents {marks : List Mark} (woven : Woven marks splices)
    (spells : ∀ splice ∈ splices, Spells splice.part splice.meant) :
    Contents (Stencil.filledOf Occurrence.encoded marks) := by
  induction woven with
  | nil => exact .nil
  | @cons found splice marks rest _ _ ih =>
    have here := (spells splice (by simp)).contents
    have later := ih fun other member => spells other (by simp [member])
    rw [filledOf_cons, filledOf_append, filledOf_characters]
    exact (contents_digits found.code).append (here.append later)

/-- No occurrence in a string literal is raw. -/
theorem findRaw_literal {source : Text} {inner : List Mark} (spells : Spells first meant)
    (later : ∀ splice ∈ splices, Spells splice.part splice.meant) (woven : Woven inner splices)
    (marks_eq : marksOf segments = ('"' :: first).map .character ++ (inner ++ [.character '"'])) :
    Template.findRaw config source segments = .ok [] := by
  have encoded_eq : encodedOf segments = '"' :: (first ++ filledOf Occurrence.encoded inner) ++ ['"'] := by
    rw [encodedOf_eq_filledOf, marks_eq, filledOf_append, filledOf_append, filledOf_characters]
    simp [Mark.filled]
  have parsed : Document.parse (encodedOf segments) = .ok .other := by
    rw [encoded_eq]
    exact Document.parse_literal (spells.contents.append (woven.contents later))
  unfold Template.findRaw
  split
  · rfl
  · rw [parsed]
    rfl

/-! ### Reading the expanded literal -/

/-- Escaped values between parts of a string literal mean the values between what the parts mean. -/
theorem spells_literal (value : Text → Text) (spells : Spells first meant)
    (later : ∀ splice ∈ splices, Spells splice.part splice.meant) :
    Spells (first ++ splices.flatMap fun splice => Json.escape (value splice.name) ++ splice.part)
      (literalMeaning value meant splices) := by
  refine spells.append ?_
  induction splices with
  | nil => exact .nil
  | cons splice rest ih =>
    have here := (Json.spells_escape (value splice.name)).append (later splice (by simp))
    exact here.append (ih fun other member => later other (by simp [member]))

/-- A template of a string literal reads as what the literal means with the values
that are rendered, if they are rendered as escaped texts. -/
theorem read_literal {source : Text} {inner : List Mark} {values : Renderings} {value : Text → Text}
    (spells : Spells first meant) (later : ∀ splice ∈ splices, Spells splice.part splice.meant)
    (woven : Woven inner splices)
    (marks_eq : marksOf segments = ('"' :: first).map .character ++ (inner ++ [.character '"']))
    (inString : ∀ found ∈ occurrencesOf segments, found.context = .string)
    (given : ∀ splice ∈ splices, values.inString splice.name = some (Json.escape (value splice.name))) :
    Template.read ⟨source, config, segments⟩ values = .ok (.string (literalMeaning value meant splices)) := by
  have rendered : ∀ found, .occurrence found ∈ marksOf segments →
      values.get? found.context found.name = some (Json.escape (value found.name)) := by
    intro found member
    have isString := inString found (by rwa [occurrencesOf_eq_filterMap, Encodes.mem_occurrences])
    have inside : .occurrence found ∈ inner := by simpa [marks_eq] using member
    obtain ⟨splice, known, name_eq⟩ := woven.exists_splice inside
    rw [isString, ← name_eq]
    exact given splice known
  have byName : ∀ found, .occurrence found ∈ inner → found.rendering values = Json.escape (value found.name) := by
    intro found member
    rw [Occurrence.rendering, rendered found (by simp [marks_eq, member])]
    rfl
  have expands : Segment.expandAll config values segments = .ok ('"' ::
      (first ++ splices.flatMap fun splice => Json.escape (value splice.name) ++ splice.part) ++ ['"']) := by
    have filled := woven.filledOf (fun name => Json.escape (value name)) byName
    rw [expandAll_eq_ok, marks_eq, filledOf_append, filledOf_append, filledOf_characters, filled]
    · simp [Mark.filled]
    · intro found member
      rw [occurrencesOf_eq_filterMap, Encodes.mem_occurrences] at member
      exact ⟨_, rendered found member⟩
  have read := Json.parse_quoted_iff.mpr (spells_literal value spells later)
  simp only [Template.read, Template.expandToText_eq, Template.expand, expands, read]

/-- **Values in string literals survive.** Let a source be spliced as intended, let
no tag be empty and let there be no more occurrences than codes. Then it compiles
with any base, all of its occurrences are in string context, and with any values
that are displayed, or are strings of a JSON object, the expanded text reads as
what the parts mean with the values between them, whatever these are made of. -/
theorem string_values_survive (tagged : config.emptyDelimiter? = none) (enough : splices.length ≤ Code.limit)
    (isSpliced : IsSpliced config first meant splices) :
    ∃ compiled, Template.compile config (literalSource config first splices) base = .ok compiled ∧
      compiled.template.occurrences.map (fun found => (found.name, found.position)) =
        Splice.places config (Text.size ('"' :: first)) splices ∧
      (∀ found ∈ compiled.template.occurrences, found.context = .string) ∧
      (∀ (value : Text → Text) (display : Text → Option Text),
        (∀ splice ∈ splices, display splice.name = some (value splice.name)) →
          compiled.template.read (Renderings.ofDisplay display) =
            .ok (.string (literalMeaning value meant splices))) ∧
      ∀ (value : Text → Text) (members : List (Text × Json.Value)),
        (∀ splice ∈ splices, members.lookup splice.name = some (.string (value splice.name))) →
          compiled.template.read (Values.renderingsOfMembers members) =
            .ok (.string (literalMeaning value meant splices)) := by
  obtain ⟨spells, later⟩ := isSpliced.spells
  obtain ⟨segments, divided⟩ : ∃ segments,
      Segment.ofSource config (literalSource config first splices) base = .ok segments := by
    apply number_exists
    rwa [isSpliced.count_scan, Nat.zero_add]
  obtain ⟨inner, marks_eq, woven⟩ := isSpliced.woven divided
  have inString : ∀ found ∈ occurrencesOf segments, found.context = .string := by
    intro found member
    rw [occurrencesOf_eq_filterMap, Encodes.mem_occurrences] at member
    exact (numbered_of_ofSource divided).2 found member
  have search : Template.findRaw config (literalSource config first splices) segments = .ok [] :=
    findRaw_literal spells later woven marks_eq
  refine ⟨⟨⟨literalSource config first splices, config, segments⟩, []⟩, ?_, isSpliced.places divided, inString, ?_, ?_⟩
  · simp only [Template.compile, tagged, divided, search, markRaw_nil]
  · intro value display given
    apply read_literal spells later woven marks_eq inString
    intro splice known
    simp [Renderings.ofDisplay, given splice known]
  · intro value members given
    apply read_literal spells later woven marks_eq inString
    intro splice known
    simp [Values.renderingsOfMembers, given splice known]

/-- An occurrence between an escaped quote and an escaped line break. -/
def sampleSplices : List Splice := [⟨['v'], ['\\', 'n'], ['\n']⟩]

/-- A value that looks like an occurrence and ends in a quote is read back. -/
theorem quoted_value_survives :
    ∃ compiled,
      Template.compile sampleConfig (literalSource sampleConfig ['\\', '"'] sampleSplices) 7 = .ok compiled ∧
      compiled.template.read (Renderings.ofDisplay fun _ => some ['<', 'v', '>', '"']) =
        .ok (.string ['"', '<', 'v', '>', '"', '\n']) := by
  have isLiteral : Json.parse ('"' :: ['\\', '"'] ++ ['"']) = .ok (.string ['"']) :=
    Json.parse_quoted_iff.mpr (.escape (.short (by decide)) .nil)
  have areLiterals : ∀ splice ∈ sampleSplices,
      Json.parse ('"' :: splice.part ++ ['"']) = .ok (.string splice.meant) := by
    intro splice known
    obtain rfl := List.mem_singleton.mp known
    exact Json.parse_quoted_iff.mpr (.escape (.short (by decide)) .nil)
  have pieces : Piece.scan sampleConfig (literalSource sampleConfig ['\\', '"'] sampleSplices) =
      [.literal ['"', '\\', '"'], .occurrence ['v'], .literal ['\\', 'n', '"']] := by cbv
  have isSpliced : IsSpliced sampleConfig ['\\', '"'] ['"'] sampleSplices :=
    ⟨isLiteral, areLiterals, by rw [pieces]; rfl⟩
  obtain ⟨compiled, compiles, _, _, displayed, _⟩ :=
    @string_values_survive sampleConfig 7 ['\\', '"'] ['"'] sampleSplices (by decide) (by decide) isSpliced
  exact ⟨compiled, compiles, displayed (fun _ => ['<', 'v', '>', '"']) _ fun _ _ => rfl⟩

/-! ### What is refused -/

/-- Numbering succeeds only if there are codes for all occurrences. -/
theorem count_le_of_number {position offset : Nat} {pieces : List Piece} (begun : offset ≤ Code.limit)
    (numbered : Segment.number config base position offset pieces = .ok segments) :
    offset + Piece.count pieces ≤ Code.limit := by
  induction pieces generalizing position offset segments with
  | nil => exact begun
  | cons piece pieces ih =>
    cases piece with
    | literal text =>
      obtain ⟨rest, inner, rfl⟩ := number_literal_eq_ok numbered
      exact ih begun inner
    | occurrence name =>
      obtain ⟨below, rest, inner, rfl⟩ := number_occurrence_eq_ok numbered
      have later := ih below inner
      rw [Piece.count]
      omega

/-- A configuration with the name `v` behind an angle bracket, and nothing behind the name. -/
def untaggedConfig : Config := { names := Names.ofList [['v']], startTag := ['<'], endTag := [] }

/-- So many occurrences with nothing between them. -/
def crowd (count : Nat) : List Splice := List.replicate count ⟨['v'], [], []⟩

/-- Each of the occurrences of a crowd is found. -/
theorem scan_crowd (count : Nat) :
    Piece.scan sampleConfig ((crowd count).flatMap (Splice.source sampleConfig) ++ ['"']) =
      List.replicate count (.occurrence ['v']) ++ [.literal ['"']] := by
  induction count with
  | zero => cbv
  | succ count ih =>
    have here (rest : Text) : sampleConfig.occurrence? ('<' :: 'v' :: '>' :: rest) = some (['v'], rest) := rfl
    have source_eq : (crowd (count + 1)).flatMap (Splice.source sampleConfig) ++ ['"'] =
        '<' :: 'v' :: '>' :: ((crowd count).flatMap (Splice.source sampleConfig) ++ ['"']) := rfl
    rw [source_eq, Piece.scan]
    split
    · rename_i name afterEnd found
      rw [here] at found
      obtain ⟨rfl, rfl⟩ := Prod.mk.inj (Option.some.inj found)
      rw [ih]
      rfl
    · rename_i none
      rw [here] at none
      cases none

theorem places_crowd (start count : Nat) :
    Piece.places sampleConfig start (List.replicate count (.occurrence ['v']) ++ [.literal ['"']]) =
      Splice.places sampleConfig start (crowd count) := by
  induction count generalizing start with
  | zero => rfl
  | succ count ih =>
    have later := ih (start + 3)
    simp only [crowd, List.replicate_succ, List.cons_append, Piece.places, Splice.places] at later ⊢
    exact congrArg _ later

/-- A crowd in quotes is spliced as intended, whatever its size. -/
theorem isSpliced_crowd {count : Nat} (some : 0 < count) : IsSpliced sampleConfig [] [] (crowd count) := by
  have nothing : Json.parse ('"' :: [] ++ ['"']) = .ok (.string []) := Json.parse_quoted_iff.mpr .nil
  refine ⟨nothing, ?_, ?_⟩
  · intro splice known
    obtain ⟨_, rfl⟩ := List.mem_replicate.mp known
    exact nothing
  · obtain ⟨count, rfl⟩ := Nat.exists_eq_add_one_of_ne_zero (Nat.ne_of_gt some)
    have none (rest : Text) : sampleConfig.occurrence? ('"' :: rest) = none := rfl
    have source_eq : literalSource sampleConfig [] (crowd (count + 1)) =
        '"' :: ((crowd (count + 1)).flatMap (Splice.source sampleConfig) ++ ['"']) := rfl
    have pieces : Piece.scan sampleConfig (literalSource sampleConfig [] (crowd (count + 1))) =
        .literal ['"'] :: (List.replicate (count + 1) (.occurrence ['v']) ++ [.literal ['"']]) := by
      rw [source_eq, Piece.scan]
      split
      · rename_i found
        rw [none] at found
        cases found
      · rw [scan_crowd]
        rfl
    rw [pieces]
    exact places_crowd 1 (count + 1)

/-- Two kinds of sources that are spliced as intended do not compile: those with an
empty tag, and those with more occurrences than there are codes. -/
theorem spliced_but_refused :
    (IsSpliced untaggedConfig [] [] (crowd 1) ∧
      ∀ base, Template.compile untaggedConfig (literalSource untaggedConfig [] (crowd 1)) base =
        .error (.emptyDelimiter .stop)) ∧
    IsSpliced sampleConfig [] [] (crowd (Code.limit + 1)) ∧
      ∀ base compiled, Template.compile sampleConfig
        (literalSource sampleConfig [] (crowd (Code.limit + 1))) base ≠ .ok compiled := by
  refine ⟨⟨?_, ?_⟩, isSpliced_crowd (Nat.succ_pos _), ?_⟩
  · have nothing : Json.parse ('"' :: [] ++ ['"']) = .ok (.string []) := Json.parse_quoted_iff.mpr .nil
    have pieces : Piece.scan untaggedConfig (literalSource untaggedConfig [] (crowd 1)) =
        [.literal ['"'], .occurrence ['v'], .literal ['"']] := by cbv
    refine ⟨nothing, ?_, by rw [pieces]; rfl⟩
    intro splice known
    obtain ⟨_, rfl⟩ := List.mem_replicate.mp known
    exact nothing
  · intro base
    exact compile_emptyDelimiter_iff.mpr rfl
  · intro base compiled compiles
    obtain ⟨segments, _, divided, _⟩ := compile_eq_ok compiles
    have few := count_le_of_number (Nat.zero_le _) divided
    rw [← Piece.length_places 0, (isSpliced_crowd (Nat.succ_pos Code.limit)).found, Splice.length_places, crowd,
      List.length_replicate] at few
    omega

end Stencil
