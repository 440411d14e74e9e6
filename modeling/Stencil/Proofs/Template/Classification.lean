import Stencil.Proofs.Document.Soundness
import Stencil.Proofs.Document.Separation
import Stencil.Proofs.Template.Compilation

/-! Classification is exact. An occurrence is raw if and only if its code is a
whole integer or a whole key without quotes in the encoded document. The digits
of a code that are a lexeme by themselves stand alone, so they are the code of
an occurrence that stands there; and the character in front of them is literal
text, so the source shows the same character. -/
namespace Stencil

open Document (Lexeme Node Denotes textOf)

variable {config : Config} {source : Text} {base : Nat} {marks front back : List Mark}
  {lexemes before after : List Lexeme} {root : Node} {found : Occurrence} {code : Code}

private theorem before_lexeme {token : Lexeme} (denotes : Denotes (before ++ token :: after) root)
    (solid : ¬ token.IsGap) :
    ∀ last ∈ (textOf before).getLast?, last.isDigit = false ∧ last ≠ '"' := by
  intro last member
  rcases List.eq_nil_or_concat before with rfl | ⟨earlier, gap, rfl⟩
  · cases member
  · obtain ⟨character, text_eq, noDigit, noQuote⟩ :=
      ((Document.Phrase.beside denotes solid).1 gap (by simp)).text
    rw [List.concat_eq_append, Document.textOf_append, Document.textOf_cons, text_eq] at member
    simp only [Document.textOf_nil, List.append_nil, List.getLast?_concat, Option.mem_def,
      Option.some.injEq] at member
    exact member ▸ ⟨noDigit, noQuote⟩

private theorem after_lexeme {token : Lexeme} (denotes : Denotes (before ++ token :: after) root)
    (solid : ¬ token.IsGap) : EndsBefore (textOf after) := by
  intro next member
  cases after with
  | nil => cases member
  | cons gap later =>
    obtain ⟨character, text_eq, noDigit, _⟩ := ((Document.Phrase.beside denotes solid).2 gap rfl).text
    rw [Document.textOf_cons, text_eq] at member
    obtain rfl := Option.some.inj member
    exact noDigit

/-- A lexeme that consists of the digits of a code is the code of an occurrence that stands there. -/
theorem Encodes.lexeme_place {token : Lexeme} (encodes : Encodes config source base marks)
    (denotes : Denotes (before ++ token :: after) root) (solid : ¬ token.IsGap)
    (text_eq : textOf (before ++ token :: after) = filledOf Occurrence.encoded marks)
    (whole : token.text = code.digits) (code_base : code.base = base) (offset_lt : code.offset < Code.limit) :
    ∃ front found back, marks = front ++ .occurrence found :: back ∧ found.code = code ∧
      filledOf Occurrence.encoded front = textOf before ∧
      filledOf Occurrence.encoded back = textOf after := by
  refine code_place encodes.codesOf encodes.untouched code_base offset_lt ?_
    (fun last member => (before_lexeme denotes solid last member).1) (after_lexeme denotes solid)
  rw [← text_eq, ← whole]
  simp

/-- A quoted key that consists of the digits of a code is the code of an
occurrence that stands between the quotes. -/
theorem Encodes.quotedKey_place (encodes : Encodes config source base marks)
    (text_eq : textOf (before ++ .quotedKey code.digits :: after) = filledOf Occurrence.encoded marks)
    (code_base : code.base = base) (offset_lt : code.offset < Code.limit) :
    ∃ front found back, marks = front ++ .occurrence found :: back ∧ found.code = code ∧
      filledOf Occurrence.encoded front = textOf before ++ ['"'] := by
  have starts : StartsAfter (textOf before ++ ['"']) := by
    intro last member
    rw [List.getLast?_concat] at member
    obtain rfl := Option.some.inj member
    rfl
  have ends : EndsBefore ('"' :: textOf after) := by
    intro next member
    obtain rfl := Option.some.inj member
    rfl
  obtain ⟨front, found, back, split, same, front_eq, _⟩ :=
    code_place encodes.codesOf encodes.untouched code_base offset_lt (by simp [← text_eq, Lexeme.text]) starts ends
  exact ⟨front, found, back, split, same, front_eq⟩

/-- The quote in front of an occurrence is decided by the character in front of
its code, unless that is a digit: it is literal text then. -/
theorem Encodes.followsQuote_eq {text : Text} {character : Char} (encodes : Encodes config source base marks)
    (split : marks = front ++ .occurrence found :: back)
    (front_eq : filledOf Occurrence.encoded front = text ++ [character]) (noDigit : character.isDigit = false) :
    followsQuote source found.position = decide (character = '"') := by
  obtain ⟨earlier, rfl, _⟩ := last_character front_eq noDigit
  rw [(encodes.numbered _ _ _ split).1, followsQuote, ← encodes.source_eq, split, filledOf_append,
    Text.cut?_append]
  simp [Mark.filled]

/-- What it takes for a token to be the raw use of an occurrence. -/
theorem rawOccurrence?_eq_some {occurrences : List Occurrence} {token : Document.Token}
    (raw : rawOccurrence? source occurrences token = some found) :
    token.text = found.code.digits ∧ found ∈ occurrences ∧
      ∀ text, token = .key text → followsQuote source found.position = false := by
  simp only [rawOccurrence?, Option.bind_eq_bind, Option.bind_eq_some_iff] at raw
  obtain ⟨code, read, known, search, raw⟩ := raw
  have code_eq : known.code = code := by simpa using List.find?_some search
  have known_eq : known = found ∧ ∀ text, token = .key text → followsQuote source known.position = false := by
    cases token with
    | integer text => exact ⟨Option.some.inj raw, fun _ isKey => by cases isKey⟩
    | key text =>
      obtain ⟨noQuote, same⟩ : followsQuote source known.position = false ∧ known = found := by simpa using raw
      exact ⟨same, fun _ _ => noQuote⟩
  obtain ⟨rfl, noQuote⟩ := known_eq
  exact ⟨code_eq ▸ Code.eq_digits_of_ofDigits? read, List.mem_of_find?_eq_some search, noQuote⟩

namespace Encodes

/-- Occurrences with the same code are the same. -/
theorem eq_of_code (encodes : Encodes config source base marks) {found other : Occurrence}
    (member : .occurrence found ∈ marks) (member' : .occurrence other ∈ marks) (same : found.code = other.code) :
    found = other := by
  obtain ⟨front, back, split⟩ := List.append_of_mem member
  obtain ⟨front', back', split'⟩ := List.append_of_mem member'
  exact (encodes.numbered.split_unique split split' same).2.1

theorem mem_occurrences {marks : List Mark} {found : Occurrence} :
    found ∈ marks.filterMap Mark.occurrence? ↔ .occurrence found ∈ marks := by
  simp only [List.mem_filterMap]
  constructor
  · rintro ⟨mark, member, is⟩
    cases mark with
    | character char => cases is
    | occurrence other =>
      obtain rfl := Option.some.inj is
      exact member
  · exact fun member => ⟨_, member, rfl⟩

/-- The digits of a code lead to its occurrence. -/
theorem lookup (encodes : Encodes config source base marks) (member : .occurrence found ∈ marks)
    {token : Document.Token} (text_eq : token.text = found.code.digits)
    (noQuote : ∀ text, token = .key text → followsQuote source found.position = false) :
    rawOccurrence? source (marks.filterMap Mark.occurrence?) token = some found := by
  have search : (marks.filterMap Mark.occurrence?).find? (fun other => decide (other.code = found.code)) =
      some found := by
    cases result : (marks.filterMap Mark.occurrence?).find? (fun other => decide (other.code = found.code)) with
    | none =>
      have unfound := List.find?_eq_none.mp result found (mem_occurrences.mpr member)
      simp at unfound
    | some other =>
      have same : other.code = found.code := by simpa using List.find?_some result
      rw [encodes.eq_of_code (mem_occurrences.mp (List.mem_of_find?_eq_some result)) member same]
  simp only [rawOccurrence?, text_eq, Code.ofDigits?_digits (encodes.usable member), Option.bind_eq_bind,
    Option.bind_some, search]
  cases token with
  | integer text => rfl
  | key text => simp [noQuote text rfl]

/-- A lexeme that an occurrence is found to be raw by is the code of the occurrence,
and stands where the occurrence does. -/
theorem raw_place {lexeme : Lexeme} (encodes : Encodes config source base marks)
    (denotes : Denotes (before ++ lexeme :: after) root)
    (text_eq : textOf (before ++ lexeme :: after) = filledOf Occurrence.encoded marks) {token : Document.Token}
    (isToken : lexeme.token? = some token)
    (raw : rawOccurrence? source (marks.filterMap Mark.occurrence?) token = some found) :
    (lexeme = .integer found.code.digits ∨ lexeme = .bareKey found.code.digits) ∧
      ∃ front back, marks = front ++ .occurrence found :: back ∧
        filledOf Occurrence.encoded front = textOf before := by
  obtain ⟨whole, known, noQuote⟩ := rawOccurrence?_eq_some raw
  have member := mem_occurrences.mp known
  obtain ⟨same_base, offset_lt⟩ := encodes.codesOf found member
  have place (solid : ¬ lexeme.IsGap) (whole : lexeme.text = found.code.digits) :
      ∃ front back, marks = front ++ .occurrence found :: back ∧
        filledOf Occurrence.encoded front = textOf before := by
    obtain ⟨front, other, back, split, same, front_eq, _⟩ :=
      encodes.lexeme_place denotes solid text_eq whole same_base offset_lt
    obtain rfl := encodes.eq_of_code (by simp [split]) member same
    exact ⟨front, back, split, front_eq⟩
  cases lexeme with
  | blank | mark | decimal | word | string => cases isToken
  | integer text =>
    obtain rfl := Option.some.inj isToken
    obtain rfl : text = found.code.digits := whole
    exact ⟨.inl rfl, place nofun rfl⟩
  | bareKey text =>
    obtain rfl := Option.some.inj isToken
    obtain rfl : text = found.code.digits := whole
    exact ⟨.inr rfl, place nofun rfl⟩
  | quotedKey text =>
    obtain rfl := Option.some.inj isToken
    obtain rfl : text = found.code.digits := whole
    obtain ⟨front, other, back, split, same, front_eq⟩ := encodes.quotedKey_place text_eq same_base offset_lt
    obtain rfl := encodes.eq_of_code (by simp [split]) member same
    have quote := encodes.followsQuote_eq split front_eq rfl
    rw [noQuote _ rfl] at quote
    cases quote

private theorem standsAt_of_raw (encodes : Encodes config source base marks) (denotes : Denotes lexemes root)
    (text_eq : textOf lexemes = filledOf Occurrence.encoded marks)
    (split : marks = front ++ .occurrence found :: back) {token : Document.Token} (member : token ∈ root.tokens)
    (raw : rawOccurrence? source (marks.filterMap Mark.occurrence?) token = some found) :
    ∃ lexeme, (lexeme = .integer found.code.digits ∨ lexeme = .bareKey found.code.digits) ∧
      Document.StandsAt lexeme lexemes (Text.size (filledOf Occurrence.encoded front)) := by
  have tokens : root.tokens = lexemes.filterMap Lexeme.token? := Document.Phrase.tokens denotes
  rw [tokens] at member
  obtain ⟨lexeme, lexeme_mem, isToken⟩ := List.mem_filterMap.mp member
  obtain ⟨before, after, rfl⟩ := List.append_of_mem lexeme_mem
  obtain ⟨shape, front', back', split', front_eq⟩ := encodes.raw_place denotes text_eq isToken raw
  obtain ⟨rfl, _, _⟩ := encodes.numbered.split_unique split' split rfl
  exact ⟨lexeme, shape, before, after, rfl, by rw [front_eq]⟩

/-- No quote stands in front of an occurrence whose code is a key without quotes. -/
theorem not_followsQuote (encodes : Encodes config source base marks)
    (denotes : Denotes (before ++ .bareKey code.digits :: after) root)
    (split : marks = front ++ .occurrence found :: back)
    (front_eq : filledOf Occurrence.encoded front = textOf before) :
    followsQuote source found.position = false := by
  rcases List.eq_nil_or_concat before with rfl | ⟨earlier, gap, rfl⟩
  · exact absurd rfl denotes.before_bareKey
  · rw [List.concat_eq_append] at denotes front_eq
    obtain ⟨character, text_eq, noDigit, noQuote⟩ :=
      ((Document.Phrase.beside denotes nofun).1 gap (by simp)).text
    rw [Document.textOf_append, Document.textOf_cons, text_eq] at front_eq
    rw [encodes.followsQuote_eq split front_eq noDigit]
    simpa using noQuote

/-- The occurrences that are found to be raw are those whose codes are whole
integers or whole keys without quotes. -/
theorem raw_iff (encodes : Encodes config source base marks) (denotes : Denotes lexemes root)
    (text_eq : textOf lexemes = filledOf Occurrence.encoded marks)
    (split : marks = front ++ .occurrence found :: back) :
    (∃ other ∈ rawTokens source (marks.filterMap Mark.occurrence?) root, other.code = found.code) ↔
      ∃ lexeme, (lexeme = .integer found.code.digits ∨ lexeme = .bareKey found.code.digits) ∧
        Document.StandsAt lexeme lexemes (Text.size (filledOf Occurrence.encoded front)) := by
  have member : .occurrence found ∈ marks := by simp [split]
  simp only [rawTokens, List.mem_filterMap]
  constructor
  · rintro ⟨other, ⟨token, isToken, raw⟩, same⟩
    obtain ⟨_, known, _⟩ := rawOccurrence?_eq_some raw
    obtain rfl := encodes.eq_of_code (mem_occurrences.mp known) member same
    exact encodes.standsAt_of_raw denotes text_eq split isToken raw
  · rintro ⟨lexeme, shape, before, after, rfl, size_eq⟩
    have tokens : root.tokens = _ := Document.Phrase.tokens denotes
    have front_eq : filledOf Occurrence.encoded front = textOf before := by
      have divisions := text_eq
      rw [split, filledOf_append, Document.textOf_append] at divisions
      exact (Text.append_inj_of_size divisions size_eq).1.symm
    rcases shape with rfl | rfl
    · refine ⟨found, ⟨.integer found.code.digits, ?_, encodes.lookup member rfl nofun⟩, rfl⟩
      simp [tokens, Lexeme.token?]
    · have noQuote := encodes.not_followsQuote denotes split front_eq
      refine ⟨found, ⟨.key found.code.digits, ?_, encodes.lookup member rfl fun _ _ => noQuote⟩, rfl⟩
      simp [tokens, Lexeme.token?]

end Encodes

/-- The code of the occurrence after the given segments is a whole integer, or
a whole key without quotes, among the lexemes of the encoded document. -/
def IsWholeToken (lexemes : List Lexeme) (front : List Segment) (found : Occurrence) : Prop :=
  ∃ lexeme, (lexeme = .integer found.code.digits ∨ lexeme = .bareKey found.code.digits) ∧
    Document.StandsAt lexeme lexemes (Text.size (encodedOf front))

/-- The code of the occurrence after the given segments lies between the quotes
of a string literal or of a quoted key. -/
def IsQuoted (lexemes : List Lexeme) (front : List Segment) (found : Occurrence) : Prop :=
  ∃ lexeme contents start, (lexeme = .string contents ∨ lexeme = .quotedKey contents) ∧
    Document.StandsAt lexeme lexemes start ∧ start < Text.size (encodedOf front) ∧
    Text.size (encodedOf front) + Text.size found.code.digits < start + Text.size lexeme.text

/-- A code between quotes is no token by itself. -/
theorem IsQuoted.not_isWholeToken {front : List Segment} (quoted : IsQuoted lexemes front found) :
    ¬ IsWholeToken lexemes front found := by
  obtain ⟨lexeme, contents, start, _, stands, begins, ends⟩ := quoted
  rintro ⟨token, _, stands'⟩
  have apart := stands.disjoint stands' begins
  omega

/-- The character in front of an occurrence tells whether its code, if it is a
whole key, is quoted. -/
theorem Encodes.followsQuote_iff (encodes : Encodes config source base marks) (denotes : Denotes lexemes root)
    (text_eq : textOf lexemes = filledOf Occurrence.encoded marks) (member : .occurrence found ∈ marks)
    {lexeme : Lexeme} (isKey : lexeme = .bareKey found.code.digits ∨ lexeme = .quotedKey found.code.digits)
    (present : lexeme ∈ lexemes) :
    followsQuote source found.position = true ↔ lexeme = .quotedKey found.code.digits := by
  obtain ⟨same_base, offset_lt⟩ := encodes.codesOf found member
  obtain ⟨before, after, rfl⟩ := List.append_of_mem present
  rcases isKey with rfl | rfl
  · obtain ⟨front, other, back, split, same, front_eq, _⟩ :=
      encodes.lexeme_place denotes nofun text_eq rfl same_base offset_lt
    obtain rfl := encodes.eq_of_code (by simp [split]) member same
    simp [encodes.not_followsQuote denotes split front_eq]
  · obtain ⟨front, other, back, split, same, front_eq⟩ := encodes.quotedKey_place text_eq same_base offset_lt
    obtain rfl := encodes.eq_of_code (by simp [split]) member same
    simp [encodes.followsQuote_eq split front_eq rfl]

/-- The context of an occurrence of a compiled template, by what its code is in the encoded document. -/
theorem isWholeToken_of_compile {compiled : Compiled} {front back : List Segment}
    (fits : Supply.fits source base = true) (bounded : base < Code.baseBound)
    (compiles : Template.compile config source base = .ok compiled)
    (parsed : Document.parse compiled.template.encoded = .ok root) (denotes : Denotes lexemes root)
    (text_eq : textOf lexemes = compiled.template.encoded)
    (split : compiled.template.segments = front ++ .occurrence found :: back) :
    found.context = .raw ↔ IsWholeToken lexemes front found := by
  have some : compiled.template.occurrences ≠ [] := by
    simp [Template.occurrences, split, occurrencesOf, Segment.occurrence?]
  obtain ⟨segments, root', divided, parsed', template_eq⟩ := compile_eq_ok_of_occurrences compiles some
  obtain rfl := Except.ok.inj (parsed.symm.trans parsed')
  obtain ⟨encodes, contexts⟩ := encodes_of_ofSource fits bounded divided
  have marks_split := congrArg marksOf (congrArg Template.segments template_eq).symm
  rw [marksOf_markRaw, split, marksOf_append, marksOf_cons] at marks_split
  obtain ⟨before, plain, after, marks_eq, rfl, front_eq, _⟩ := split_of_map marks_split
  have encoded_eq : textOf lexemes = filledOf Occurrence.encoded (marksOf segments) := by
    rw [text_eq, template_eq, Template.encoded, encodedOf_markRaw, encodedOf_eq_filledOf]
  rw [Occurrence.marked_context (contexts plain (by simp [marks_eq])), occurrencesOf_eq_filterMap,
    encodes.raw_iff denotes encoded_eq marks_eq, IsWholeToken, Occurrence.marked_code,
    encodedOf_eq_filledOf front, front_eq, encoded_marked]

/-- **Classification is exact.** When a source compiles, its encoded document
is a document of the grammar, and an occurrence is raw if and only if its own
code is a whole integer or a whole key without quotes there; so it is never raw
between quotes, not even as the only contents of a key. The character in front
of an occurrence that is a whole key tells correctly whether the key is quoted. -/
theorem context_eq_raw_iff {compiled : Compiled} {front back : List Segment}
    (fits : Supply.fits source base = true) (bounded : base < Code.baseBound)
    (compiles : Template.compile config source base = .ok compiled)
    (split : compiled.template.segments = front ++ .occurrence found :: back) :
    ∃ root, Document.parse compiled.template.encoded = .ok root ∧
      (∃ lexemes, Denotes lexemes root ∧ textOf lexemes = compiled.template.encoded) ∧
      ∀ lexemes, Denotes lexemes root → textOf lexemes = compiled.template.encoded →
        (found.context = .raw ↔ IsWholeToken lexemes front found) ∧
        (IsQuoted lexemes front found → found.context = .string) ∧
        ∀ lexeme ∈ lexemes, lexeme = .bareKey found.code.digits ∨ lexeme = .quotedKey found.code.digits →
          (followsQuote source found.position = true ↔ lexeme = .quotedKey found.code.digits) := by
  have some : compiled.template.occurrences ≠ [] := by
    simp [Template.occurrences, split, occurrencesOf, Segment.occurrence?]
  obtain ⟨_, root, _, parsed, _⟩ := compile_eq_ok_of_occurrences compiles some
  refine ⟨root, parsed, Document.denotes_of_parse parsed, ?_⟩
  intro lexemes denotes text_eq
  have whole := isWholeToken_of_compile fits bounded compiles parsed denotes text_eq split
  refine ⟨whole, ?_, fun lexeme present isKey => ?_⟩
  · intro quoted
    cases context : found.context with
    | string => rfl
    | raw => exact absurd (whole.mp context) quoted.not_isWholeToken
  · have member : .occurrence found ∈ marksOf compiled.template.segments := by
      rw [split, marksOf_append, marksOf_cons]
      simp [Segment.marks]
    have encodes := encodes_of_compile fits bounded compiles
    rw [Template.encoded, encodedOf_eq_filledOf] at text_eq
    exact encodes.followsQuote_iff denotes text_eq member isKey present

/-- A configuration with the name `v` between angle brackets. -/
def sampleConfig : Config := { names := Names.ofList [['v']], startTag := ['<'], endTag := ['>'] }

/-- An object whose key is an occurrence, with an occurrence in a string and one as an item. -/
def sampleSource : Text :=
  ['\x7b', '<', 'v', '>', ':', '[', '"', '<', 'v', '>', '"', ',', '<', 'v', '>', ']', '\x7d']

/-- The segments of the sample when nothing is known to be raw. -/
def sampleSegments : List Segment :=
  [.literal ['\x7b'], .occurrence ⟨['v'], 1, ⟨7, 0⟩, .string⟩, .literal [':', '[', '"'],
    .occurrence ⟨['v'], 7, ⟨7, 1⟩, .string⟩, .literal ['"', ','],
    .occurrence ⟨['v'], 12, ⟨7, 2⟩, .string⟩, .literal [']', '\x7d']]

/-- The raw occurrences of the sample: the key and the item. -/
def sampleRaw : List Occurrence := [⟨['v'], 1, ⟨7, 0⟩, .string⟩, ⟨['v'], 12, ⟨7, 2⟩, .string⟩]

theorem ofSource_sample : Segment.ofSource sampleConfig sampleSource 7 = .ok sampleSegments := by
  have pieces : Piece.scan sampleConfig sampleSource =
      [.literal ['\x7b'], .occurrence ['v'], .literal [':', '[', '"'], .occurrence ['v'],
        .literal ['"', ','], .occurrence ['v'], .literal [']', '\x7d']] := by cbv
  rw [Segment.ofSource, pieces]
  decide

/-- The codes of the sample are these digits and one more. -/
def sampleDigits (last : Char) : Text := ['7', '0', '0', '0', '0', '0', '0', '0', '0', last]

/-- The tree of the encoded document of the sample. -/
def sampleRoot : Node := .object [(sampleDigits '0', .array [.other, .integer (sampleDigits '2')])]

theorem compile_sample : Template.compile sampleConfig sampleSource 7 =
    .ok ⟨⟨sampleSource, sampleConfig, markRaw sampleRaw sampleSegments⟩, sampleRaw⟩ := by
  have encoded : encodedOf sampleSegments =
      ['\x7b'] ++ sampleDigits '0' ++ [':', '[', '"'] ++ sampleDigits '1' ++ ['"', ','] ++ sampleDigits '2' ++
        [']', '\x7d'] := by cbv
  have parsed : Document.parse (encodedOf sampleSegments) = .ok sampleRoot := by
    rw [encoded]
    rfl
  have raw : rawTokens sampleSource (occurrencesOf sampleSegments) sampleRoot = sampleRaw := rfl
  have search : Template.findRaw sampleConfig sampleSource sampleSegments = .ok sampleRaw := by
    rw [Template.findRaw, if_neg (by decide)]
    simp only [parsed, raw]
  simp only [Template.compile, ofSource_sample, search]
  rfl

/-- The key of the sample is raw, so its code is a whole token. -/
theorem isWholeToken_sample : ∃ lexemes, textOf lexemes = encodedOf sampleSegments ∧
    IsWholeToken lexemes [.literal ['\x7b']] ⟨['v'], 1, ⟨7, 0⟩, .raw⟩ := by
  have split : markRaw sampleRaw sampleSegments =
      [.literal ['\x7b']] ++ .occurrence ⟨['v'], 1, ⟨7, 0⟩, .raw⟩ ::
        markRaw sampleRaw (sampleSegments.drop 2) := by decide
  obtain ⟨_, _, ⟨lexemes, denotes, text_eq⟩, classified⟩ :=
    context_eq_raw_iff (by decide) (by decide) compile_sample split
  refine ⟨lexemes, ?_, (classified lexemes denotes text_eq).1.mp rfl⟩
  rw [text_eq, Template.encoded, encodedOf_markRaw]

end Stencil
