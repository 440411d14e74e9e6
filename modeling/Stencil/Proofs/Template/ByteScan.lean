import Stencil.Proofs.Text.Bytes
import Stencil.Template.ByteScan

/-! The search for occurrences in the bytes of a source. It never slices the
source inside of a character, and it finds what the search by characters finds.
Though it may go on in the middle of a character, the byte that it jumps to is
the first one of the start tag, and such a byte is never inside of a character. -/
namespace Stencil

namespace ByteScan

variable {config : Config} {bytes : List UInt8}

/-! ### Slices of a text -/

theorem sliceFrom_bytes (front back : Text) :
    sliceFrom (front ++ back).bytes (Text.size front) = .ok back.bytes := by
  rw [sliceFrom, if_pos (Text.isBoundary_append front back), Text.bytes_append, ← Text.length_bytes,
    List.drop_left]

theorem isPrefixOf_bytes (opening text : Text) :
    opening.bytes.isPrefixOf text.bytes = (Text.after? opening text).isSome := by
  rw [Bool.eq_iff_iff, List.isPrefixOf_iff_prefix, Option.isSome_iff_exists]
  constructor
  · rintro ⟨rest, division⟩
    obtain ⟨back, text_eq, _⟩ := Text.eq_append_of_bytes division.symm
    exact ⟨back, Text.after?_eq_some_iff.mpr text_eq⟩
  · rintro ⟨back, found⟩
    obtain rfl := Text.after?_eq_some_iff.mp found
    exact ⟨back.bytes, (Text.bytes_append opening back).symm⟩

/-- Stripping the bytes of a text strips its characters, and breaks none. -/
theorem strip_bytes (opening text : Text) :
    strip opening.bytes text.bytes = .ok ((Text.after? opening text).map Text.bytes) := by
  rw [strip, isPrefixOf_bytes]
  cases found : Text.after? opening text with
  | none => rfl
  | some rest =>
    obtain rfl := Text.after?_eq_some_iff.mp found
    rw [Option.isSome_some, if_pos rfl, Text.length_bytes, sliceFrom_bytes]
    rfl

/-! ### Matches by bytes and by characters -/

/-- The range of a name whose occurrence begins at a place, and the end of the occurrence. -/
def placed (config : Config) (position : Nat) (name : Text) : SourceRange × Nat :=
  let nameStart := position + Text.size config.startTag
  (⟨nameStart, nameStart + Text.size name⟩, nameStart + Text.size name + Text.size config.endTag)

theorem matchName_bytes (position : Nat) (afterStart : Text) (names : List Text) :
    matchName config (position + Text.size config.startTag) afterStart.bytes names =
      .ok ((names.findSome? fun name => do
        let afterName ← Text.after? name afterStart
        let afterEnd ← Text.after? config.endTag afterName
        return (name, afterEnd)).map fun found => placed config position found.1) := by
  induction names with
  | nil => rfl
  | cons name names ih =>
    rw [matchName, strip_bytes, List.findSome?_cons]
    cases Text.after? name afterStart with
    | none => exact ih
    | some afterName =>
      simp only [Option.map_some, isPrefixOf_bytes, Option.bind_eq_bind, Option.bind_some]
      cases Text.after? config.endTag afterName with
      | none => exact ih
      | some afterEnd => simp [placed]

/-- At a character, the bytes match what the characters match, and no slice breaks one. -/
theorem matchMacro_bytes (front text : Text) :
    matchMacro config (front ++ text).bytes (Text.size front) =
      .ok ((config.occurrence? text).map fun found => placed config (Text.size front) found.1) := by
  simp only [matchMacro, sliceFrom_bytes, strip_bytes, Config.occurrence?, Text.length_bytes]
  cases Text.after? config.startTag text with
  | none => rfl
  | some afterStart => exact matchName_bytes (Text.size front) afterStart config.names.toList

/-! ### Jumping from candidate to candidate -/

theorem next?_skip {wanted : UInt8} {middle : List UInt8} (before after : List UInt8) (absent : wanted ∉ middle) :
    next? wanted (before ++ (middle ++ after)) before.length =
      next? wanted (before ++ (middle ++ after)) (before.length + middle.length) := by
  have unfound : middle.findIdx? (· = wanted) = none := by
    rw [List.findIdx?_eq_none_iff]
    intro byte member
    exact decide_eq_false fun same => absent (same ▸ member)
  rw [next?, next?, List.drop_left, ← List.append_assoc, ← List.length_append, List.drop_left, List.findIdx?_append,
    unfound]
  simp only [Option.none_or, Option.map_map, List.length_append]
  congr 1
  funext index
  simp only [Function.comp_apply]
  omega

theorem next?_here (wanted : UInt8) (before after : List UInt8) :
    next? wanted (before ++ wanted :: after) before.length = some before.length := by
  simp [next?, List.findIdx?_cons]

/-- The search depends on the next candidate only. -/
theorem spansFrom_congr {first : UInt8} {base literalStart finger finger' offset : Nat}
    (same : next? first bytes finger = next? first bytes finger') :
    spansFrom config bytes first base literalStart finger offset =
      spansFrom config bytes first base literalStart finger' offset := by
  have past {finger : Nat} (outside : ¬ finger < bytes.length) : next? first bytes finger = none := by
    rw [next?, List.drop_eq_nil_of_le (Nat.le_of_not_lt outside)]
    rfl
  rw [spansFrom, spansFrom.eq_def config bytes first base literalStart finger' offset]
  by_cases inside : finger < bytes.length
  · by_cases inside' : finger' < bytes.length
    · rw [if_pos inside, if_pos inside', same]
    · rw [if_pos inside, if_neg inside', same, past inside']
  · by_cases inside' : finger' < bytes.length
    · rw [if_neg inside, if_pos inside', ← same, past inside]
    · rw [if_neg inside, if_neg inside']

end ByteScan

/-- Segments that begin at a byte offset of the source, as places in it. -/
def spansOf (config : Config) : (start : Nat) → List Segment → List Span
  | _, [] => []
  | start, .literal text :: rest =>
    .literal ⟨start, start + Text.size text⟩ :: spansOf config (start + Text.size text) rest
  | start, .occurrence found :: rest =>
    .occurrence (ByteScan.placed config found.position found.name).1 found.position found.code found.context ::
      spansOf config (start + Text.size (Segment.source config (.occurrence found))) rest

/-- A segment that begins at a place, as places. -/
def Segment.span (config : Config) (start : Nat) : Segment → Span
  | .literal text => .literal ⟨start, start + Text.size text⟩
  | .occurrence found =>
    .occurrence (ByteScan.placed config found.position found.name).1 found.position found.code found.context

theorem spansOf_cons (start : Nat) (segment : Segment) (rest : List Segment) :
    spansOf config start (segment :: rest) =
      segment.span config start :: spansOf config (start + Text.size (segment.source config)) rest := by
  cases segment <;> rfl

namespace ByteScan

/-! ### The search by bytes and the search by characters -/

/-- The outcome of numbering pieces that begin at a place, in terms of places. -/
def located (config : Config) (start : Nat) : Except ParseError (List Segment) → Except Halt (List Span)
  | .error error => .error (.failed error)
  | .ok segments => .ok (spansOf config start segments)

variable {base start offset : Nat} {pieces : List Piece}

theorem located_literal (text : Text) :
    located config start (Segment.number config base start offset (.literal text :: pieces)) =
      (located config (start + Text.size text)
        (Segment.number config base (start + Text.size text) offset pieces)).map
        (.literal ⟨start, start + Text.size text⟩ :: ·) := by
  rw [Segment.number]
  cases Segment.number config base (start + Text.size text) offset pieces <;> rfl

/-- Pending literal characters in front of an occurrence, or at the end, become one literal. -/
theorem foldr_consLiteral (pending : Text) (noLiteral : ∀ text rest, pieces ≠ .literal text :: rest) :
    pending.foldr Piece.consLiteral pieces = if pending = [] then pieces else .literal pending :: pieces := by
  induction pending with
  | nil => rfl
  | cons character pending ih =>
    rw [List.foldr_cons, ih, if_neg (List.cons_ne_nil _ _)]
    by_cases last : pending = []
    · subst last
      cases pieces with
      | nil => rfl
      | cons piece pieces =>
        cases piece with
        | literal text => exact absurd rfl (noLiteral text pieces)
        | occurrence name => rfl
    · rw [if_neg last]
      rfl

theorem located_pending (pending : Text) (noLiteral : ∀ text rest, pieces ≠ .literal text :: rest) :
    located config start (Segment.number config base start offset (pending.foldr Piece.consLiteral pieces)) =
      (located config (start + Text.size pending)
        (Segment.number config base (start + Text.size pending) offset pieces)).map
        (literalBetween start (start + Text.size pending) ++ ·) := by
  rw [foldr_consLiteral pending noLiteral, literalBetween]
  by_cases none : pending = []
  · subst none
    cases numbered : Segment.number config base start offset pieces <;> simp [numbered, located, Except.map]
  · have positive : Text.size pending ≠ 0 := fun empty => none (Text.size_eq_zero_iff.mp empty)
    rw [if_neg none, if_neg (by omega), located_literal]
    rfl

variable {first : UInt8} {others : List UInt8}

/-- A character at which no occurrence begins is passed over, in one jump or in two. -/
theorem spansFrom_skip (isFirst : first.IsUTF8FirstByte) {character : Char} {rest : Text}
    (none : config.occurrence? (character :: rest) = none) (front : Text) (literalStart : Nat) :
    spansFrom config (front ++ character :: rest).bytes first base literalStart (Text.size front) offset =
      spansFrom config (front ++ character :: rest).bytes first base literalStart
        (Text.size (front ++ [character])) offset := by
  have unmatched := @matchMacro_bytes config front (character :: rest)
  rw [none, Option.map_none] at unmatched
  obtain ⟨byte, more, encoded, _, noFirst⟩ := Text.exists_first_byte character
  have absent : first ∉ more := fun member => noFirst first member isFirst
  have width : (byte :: more).length = character.utf8Size := encoded ▸ String.length_utf8EncodeChar character
  have bytes_eq : (front ++ character :: rest).bytes = front.bytes ++ ((byte :: more) ++ rest.bytes) := by
    rw [Text.bytes_append, Text.bytes_cons, encoded]
  rw [bytes_eq, ← Text.length_bytes front] at unmatched ⊢
  have stop_eq : Text.size (front ++ [character]) = front.bytes.length + (byte :: more).length := by simp [width]
  rw [stop_eq]
  by_cases begins : byte = first
  · subst begins
    have here := next?_here byte front.bytes (more ++ rest.bytes)
    have later := next?_skip (front.bytes ++ [byte]) rest.bytes absent
    rw [List.cons_append] at unmatched
    rw [List.cons_append, spansFrom, if_pos (by simp), here]
    dsimp only
    rw [unmatched]
    apply spansFrom_congr
    simpa [Nat.add_assoc, Nat.add_comm 1] using later
  · exact spansFrom_congr (next?_skip front.bytes rest.bytes (by simp [Ne.symm begins, absent]))

/-- An occurrence that begins at a character is found there. -/
theorem spansFrom_occurrence (tag : config.startTag.bytes = first :: others) {text name afterEnd : Text}
    (found : config.occurrence? text = some (name, afterEnd)) (front : Text) (literalStart : Nat) :
    spansFrom config (front ++ text).bytes first base literalStart (Text.size front) offset =
      match Code.nth? base offset with
      | none => .error (.failed (.tooManyMacros (Text.size front) Code.limit))
      | some code =>
        (spansFrom config (front ++ text).bytes first base (placed config (Text.size front) name).2
          (placed config (Text.size front) name).2 (offset + 1)).map fun later =>
          literalBetween literalStart (Text.size front) ++
            .occurrence (placed config (Text.size front) name).1 (Text.size front) code .string :: later := by
  have matched := @matchMacro_bytes config front text
  rw [found, Option.map_some] at matched
  obtain ⟨_, division⟩ := Config.eq_of_occurrence?_eq_some found
  have here : next? first (front ++ text).bytes (Text.size front) = some (Text.size front) := by
    have place := next?_here first front.bytes (others ++ (name ++ config.endTag ++ afterEnd).bytes)
    simpa [division, tag] using place
  have inside : Text.size front < (front ++ text).bytes.length := by
    simp [division, tag]
  cases next : Code.nth? base offset
  all_goals
    rw [spansFrom, if_pos inside, here]
    dsimp only
    rw [matched]
    simp only [next]

/-- **From a character on, the search by bytes finds what the search by
characters finds.** Behind `front` the last occurrence ends, and no occurrence
begins in the `pending` characters after it. -/
theorem spansFrom_eq (tag : config.startTag.bytes = first :: others) (front pending text : Text) (offset : Nat) :
    spansFrom config (front ++ pending ++ text).bytes first base (Text.size front) (Text.size (front ++ pending)) offset =
      located config (Text.size front) (Segment.number config base (Text.size front) offset
        (pending.foldr Piece.consLiteral (Piece.scan config text))) := by
  have isFirst := Text.isFirstByte_of_bytes tag
  fun_induction Piece.scan config text generalizing front pending offset with
  | case1 =>
    rw [located_pending pending (by simp), spansFrom, if_neg (by simp), List.append_nil]
    by_cases empty : Text.size pending = 0
    · simp [lastLiteral, literalBetween, located, Segment.number, spansOf, Except.map, empty]
    · have some : 0 < Text.size pending := Nat.pos_of_ne_zero empty
      simp [lastLiteral, literalBetween, located, Segment.number, spansOf, Except.map, some, Nat.ne_of_gt some]
  | case2 character rest name afterEnd found ih =>
    obtain ⟨_, division⟩ := Config.eq_of_occurrence?_eq_some found
    have later := ih (front ++ pending ++ (config.startTag ++ name ++ config.endTag)) [] (offset + 1)
    have text_eq : front ++ pending ++ (config.startTag ++ name ++ config.endTag) ++ [] ++ afterEnd =
        front ++ pending ++ character :: rest := by simp [division]
    have stop_eq : Text.size (front ++ pending ++ (config.startTag ++ name ++ config.endTag)) =
        (placed config (Text.size (front ++ pending)) name).2 := by
      simp [placed, Nat.add_assoc]
    rw [text_eq, List.append_nil, stop_eq, List.foldr_nil] at later
    rw [spansFrom_occurrence tag found, located_pending pending (by simp), ← Text.size_append, Segment.number]
    cases Code.nth? base offset with
    | none => rfl
    | some code =>
      have position_eq : Text.size (front ++ pending) + Text.size (Piece.source config (.occurrence name)) =
          (placed config (Text.size (front ++ pending)) name).2 := by
        simp [placed, Piece.source, Nat.add_assoc]
      simp only [later, position_eq]
      cases Segment.number config base (placed config (Text.size (front ++ pending)) name).2 (offset + 1)
          (Piece.scan config afterEnd) with
      | error error => rfl
      | ok segments =>
        simp [located, Except.map, spansOf, Segment.source, placed, Nat.add_assoc]
  | case3 character rest none ih =>
    have onward := ih front (pending ++ [character]) offset
    have text_eq : front ++ (pending ++ [character]) ++ rest = front ++ pending ++ character :: rest := by simp
    rw [List.foldr_append, text_eq, ← List.append_assoc] at onward
    rw [spansFrom_skip isFirst none]
    exact onward

/-- **The search by bytes is the search by characters.** It breaks no character,
and gives the segments as places, or fails when there are too many occurrences. -/
theorem tokenize_eq {source : Text} (tagged : config.startTag ≠ []) :
    tokenize config source base = located config 0 (Segment.ofSource config source base) := by
  unfold tokenize
  cases tag : config.startTag.bytes with
  | nil =>
    have empty : Text.size config.startTag = 0 := by rw [← Text.length_bytes, tag]; rfl
    exact absurd (Text.size_eq_zero_iff.mp empty) tagged
  | cons first others => exact spansFrom_eq tag [] [] source 0

end ByteScan
end Stencil
