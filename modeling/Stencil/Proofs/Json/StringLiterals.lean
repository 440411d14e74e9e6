import Mathlib.Data.List.TakeWhile
import Stencil.Json.Reader
import Stencil.Proofs.Document.Grammar
import Stencil.Proofs.Json.Escape

/-! What string literals mean. The meaning is given by rules of its own, and the
reader of JSON finds it for exactly those literals that have one. Literals mean
their parts one after the other, as long as no escape sequence is torn apart,
and an escaped text means the text. -/
namespace Stencil.Json

open Document (Contents)

/-- Four hexadecimal digits and the number that they stand for. -/
inductive HexUnit : Text → Nat → Prop where
  | digits {first second third fourth : Char}
      (isHex : [first, second, third, fourth].all Text.isHexDigit = true) :
      HexUnit [first, second, third, fourth]
        (((hexValue first * 16 + hexValue second) * 16 + hexValue third) * 16 + hexValue fourth)

/-- The escapes of one character, by what they mean. -/
def shortEscapes : List (Char × Char) :=
  [('"', '"'), ('\\', '\\'), ('/', '/'), ('b', '\x08'), ('f', '\x0c'), ('n', '\n'), ('r', '\r'), ('t', '\t')]

/-- What may follow a backslash, and the character that is meant. -/
inductive EscapeSequence : Text → Char → Prop where
  | short {mark meant : Char} (known : (mark, meant) ∈ shortEscapes) : EscapeSequence [mark] meant
  | unit {digits : Text} {value : Nat} (hex : HexUnit digits value) (whole : value < 0xD800 ∨ 0xDFFF < value) :
      EscapeSequence ('u' :: digits) (Char.ofNat value)
  | pair {digits digits' : Text} {high low : Nat} (hex : HexUnit digits high) (hex' : HexUnit digits' low)
      (isHigh : 0xD800 ≤ high ∧ high < 0xDC00) (isLow : 0xDC00 ≤ low ∧ low ≤ 0xDFFF) :
      EscapeSequence ('u' :: digits ++ '\\' :: 'u' :: digits')
        (Char.ofNat (0x10000 + (high - 0xD800) * 0x400 + (low - 0xDC00)))

/-- What may stand between the quotes of a string literal, and the text that is meant. -/
inductive Spells : Text → Text → Prop where
  | nil : Spells [] []
  | plain {character : Char} {part text : Text} (noQuote : character ≠ '"') (noBackslash : character ≠ '\\')
      (noControl : ¬ character.toNat < 0x20) (later : Spells part text) :
      Spells (character :: part) (character :: text)
  | escape {sequence part text : Text} {meant : Char} (escapes : EscapeSequence sequence meant)
      (later : Spells part text) : Spells ('\\' :: (sequence ++ part)) (meant :: text)

variable {part text : Text}

/-! ### Parts of literals -/

/-- Literals mean their parts one after the other. -/
theorem Spells.append {part' text' : Text} (front : Spells part text) (back : Spells part' text') :
    Spells (part ++ part') (text ++ text') := by
  induction front with
  | nil => exact back
  | plain noQuote noBackslash noControl _ ih => exact .plain noQuote noBackslash noControl ih
  | escape escapes _ ih =>
    rw [List.cons_append, List.append_assoc]
    exact .escape escapes ih

theorem HexUnit.contents {digits rest : Text} {value : Nat} (hex : HexUnit digits value) (after : Contents rest) :
    Contents ('\\' :: 'u' :: (digits ++ rest)) := by
  obtain ⟨isHex⟩ := hex
  simp only [List.all_cons, List.all_nil, Bool.and_true, Bool.and_eq_true] at isHex
  obtain ⟨one, two, three, four⟩ := isHex
  exact .unicode one two three four after

/-- A literal that means something is a literal of documents. -/
theorem Spells.contents (spells : Spells part text) : Contents part := by
  induction spells with
  | nil => exact .nil
  | plain noQuote noBackslash noControl _ ih => exact .plain noQuote noBackslash noControl ih
  | @escape _ _ _ meant escapes _ ih =>
    cases escapes with
    | @short mark _ known =>
      have areShort : ∀ pair ∈ shortEscapes, Document.isShortEscape pair.1 = true := by decide
      have isShort : Document.isShortEscape mark = true := areShort (mark, meant) known
      rw [List.singleton_append]
      exact .short isShort ih
    | unit hex _ => exact hex.contents ih
    | pair hex hex' _ _ =>
      have contents := hex.contents (hex'.contents ih)
      simpa using contents

private theorem hexValue_digitChar (digit : Nat) (small : digit < 16) :
    Text.isHexDigit (Nat.digitChar digit) = true ∧ hexValue (Nat.digitChar digit) = digit := by
  interval_cases digit <;> exact ⟨rfl, rfl⟩

/-- An escaped character means the character. -/
theorem spells_escapeChar (character : Char) : Spells (escapeChar character) [character] := by
  unfold escapeChar
  split
  case h_8 noQuote noBackslash _ _ _ _ _ =>
    split
    · rename_i control
      obtain ⟨isHex, value⟩ := hexValue_digitChar (character.toNat / 16) (by omega)
      obtain ⟨isHex', value'⟩ := hexValue_digitChar (character.toNat % 16) (by omega)
      obtain ⟨isHexZero, zero⟩ : Text.isHexDigit '0' = true ∧ hexValue '0' = 0 := ⟨rfl, rfl⟩
      have digits : HexUnit
          ['0', '0', Nat.digitChar (character.toNat / 16), Nat.digitChar (character.toNat % 16)] _ :=
        .digits (by simp only [List.all_cons, List.all_nil, isHexZero, isHex, isHex', Bool.and_true])
      have whole : ((hexValue '0' * 16 + hexValue '0') * 16 + hexValue (Nat.digitChar (character.toNat / 16))) * 16 +
          hexValue (Nat.digitChar (character.toNat % 16)) = character.toNat := by
        rw [value, value', zero]
        omega
      rw [whole] at digits
      have spells := Spells.escape (.unit digits (.inl (by omega))) .nil
      rwa [Char.ofNat_toNat] at spells
    · rename_i noControl
      exact .plain noQuote noBackslash noControl .nil
  all_goals exact .escape (.short (by decide)) .nil

/-- **An escaped text means the text.** -/
theorem spells_escape (text : Text) : Spells (escape text) text := by
  induction text with
  | nil => exact .nil
  | cons character rest ih => exact (spells_escapeChar character).append ih

/-! ### The reader -/

theorem HexUnit.reads {digits : Text} {value : Nat} (hex : HexUnit digits value) (offset : Nat) (rest : Text) :
    readHex ⟨offset, digits ++ rest⟩ = .ok (value, ⟨offset + 4, rest⟩) := by
  obtain ⟨isHex⟩ := hex
  simp only [readHex, List.cons_append, List.nil_append, if_pos isHex]

theorem hexUnit_of_readHex {cursor next : Cursor} {value : Nat} (reads : readHex cursor = .ok (value, next)) :
    ∃ digits, cursor.rest = digits ++ next.rest ∧ HexUnit digits value := by
  obtain ⟨offset, rest⟩ := cursor
  simp only [readHex] at reads
  split at reads
  · split at reads
    · rename_i isHex
      obtain ⟨rfl, rfl⟩ := Prod.mk.inj (Except.ok.inj reads)
      exact ⟨_, rfl, .digits isHex⟩
    · split at reads <;> cases reads
  · split at reads <;> cases reads

theorem expectInPair_eq_ok {cursor next : Cursor} {wanted : Char} (reads : expectInPair cursor wanted = .ok next) :
    cursor.rest = wanted :: next.rest := by
  obtain ⟨offset, rest⟩ := cursor
  cases rest with
  | nil => cases reads
  | cons found rest =>
    simp only [expectInPair] at reads
    split at reads
    · rename_i same
      obtain rfl := Except.ok.inj reads
      rw [same]
    · cases reads

/-- What is read behind a `u` is one unit, or two that make a pair. -/
theorem escapeSequence_of_readCodePoint {cursor next : Cursor} {meant : Char}
    (reads : readCodePoint .kept cursor = .ok (meant, next)) :
    ∃ sequence, cursor.rest = sequence ++ next.rest ∧ EscapeSequence ('u' :: sequence) meant := by
  unfold readCodePoint at reads
  cases hex : readHex cursor with
  | error fault =>
    rw [hex] at reads
    cases reads
  | ok first =>
    obtain ⟨unit, afterUnit⟩ := first
    obtain ⟨digits, rest_eq, isUnit⟩ := hexUnit_of_readHex hex
    simp only [hex, bind, Except.bind, pure, Except.pure, throw, throwThe, MonadExceptOf.throw] at reads
    split at reads
    · rename_i whole
      obtain ⟨rfl, rfl⟩ := Prod.mk.inj (Except.ok.inj reads)
      exact ⟨digits, rest_eq, .unit isUnit (by simpa using whole)⟩
    · rename_i surrogate
      split at reads
      · cases reads
      · cases back : expectInPair afterUnit '\\' with
        | error fault => simp [back] at reads
        | ok afterBackslash =>
          cases mark : expectInPair afterBackslash 'u' with
          | error fault => simp [back, mark] at reads
          | ok afterMark =>
            cases hex' : readHex afterMark with
            | error fault => simp [back, mark, hex'] at reads
            | ok second =>
              obtain ⟨low, afterLow⟩ := second
              obtain ⟨digits', rest_eq', isUnit'⟩ := hexUnit_of_readHex hex'
              simp only [back, mark, hex'] at reads
              split at reads
              · cases reads
              · rename_i high isLow
                obtain ⟨rfl, rfl⟩ := Prod.mk.inj (Except.ok.inj reads)
                refine ⟨digits ++ '\\' :: 'u' :: digits', ?_, .pair isUnit isUnit' ?_ ?_⟩
                · rw [rest_eq, expectInPair_eq_ok back, expectInPair_eq_ok mark, rest_eq']
                  simp
                · simp at surrogate
                  omega
                · simp at isLow
                  omega

/-- What is read behind a backslash is an escape sequence. -/
theorem escapeSequence_of_readEscape {cursor next : Cursor} {meant : Char}
    (reads : readEscape .kept cursor = .ok (meant, next)) :
    ∃ sequence, cursor.rest = sequence ++ next.rest ∧ EscapeSequence sequence meant := by
  obtain ⟨offset, rest⟩ := cursor
  cases rest with
  | nil => cases reads
  | cons mark rest =>
    simp only [readEscape] at reads
    split at reads
    case h_9 =>
      obtain ⟨sequence, rest_eq, escapes⟩ := escapeSequence_of_readCodePoint reads
      exact ⟨'u' :: sequence, congrArg _ rest_eq, escapes⟩
    case h_10 => cases reads
    all_goals
      obtain ⟨rfl, rfl⟩ := Prod.mk.inj (Except.ok.inj reads)
      exact ⟨[_], rfl, .short (by decide)⟩

/-- A unit that is no half of a pair is read as a character. -/
theorem readCodePoint_unit {digits : Text} {value : Nat} (hex : HexUnit digits value)
    (whole : value < 0xD800 ∨ 0xDFFF < value) (offset : Nat) (rest : Text) :
    readCodePoint .kept ⟨offset, digits ++ rest⟩ = .ok (Char.ofNat value, ⟨offset + 4, rest⟩) := by
  have simple : (decide (Care.kept = .skipped) || decide (value < 0xD800) || decide (0xDFFF < value)) = true := by
    simpa using whole
  simp only [readCodePoint, hex.reads, bind, Except.bind, if_pos simple]
  rfl

/-- Two units that are the halves of a pair are read as one character. -/
theorem readCodePoint_pair {digits digits' : Text} {high low : Nat} (hex : HexUnit digits high)
    (hex' : HexUnit digits' low) (isHigh : 0xD800 ≤ high ∧ high < 0xDC00) (isLow : 0xDC00 ≤ low ∧ low ≤ 0xDFFF)
    (offset : Nat) (rest : Text) :
    readCodePoint .kept ⟨offset, digits ++ '\\' :: 'u' :: (digits' ++ rest)⟩ =
      .ok (Char.ofNat (0x10000 + (high - 0xD800) * 0x400 + (low - 0xDC00)), ⟨offset + 4 + 1 + 1 + 4, rest⟩) := by
  have half : ¬ (decide (Care.kept = .skipped) || decide (high < 0xD800) || decide (0xDFFF < high)) = true := by
    simp
    omega
  have first : ¬ 0xDC00 ≤ high := by omega
  have second : ¬ (decide (low < 0xDC00) || decide (0xDFFF < low)) = true := by
    simp
    omega
  have backslash : '\\'.utf8Size = 1 ∧ 'u'.utf8Size = 1 := ⟨rfl, rfl⟩
  simp only [readCodePoint, hex.reads, bind, Except.bind, if_neg half, if_neg first, expectInPair, if_true,
    backslash, hex'.reads, if_neg second]
  rfl

/-- Escape sequences are read, whatever follows. -/
theorem EscapeSequence.reads {sequence : Text} {meant : Char} (escapes : EscapeSequence sequence meant)
    (offset : Nat) (rest : Text) :
    ∃ last, readEscape .kept ⟨offset, sequence ++ rest⟩ = .ok (meant, ⟨last, rest⟩) := by
  cases escapes with
  | short known =>
    simp only [shortEscapes, List.mem_cons, Prod.mk.injEq, List.not_mem_nil, or_false] at known
    rcases known with ⟨rfl, rfl⟩ | ⟨rfl, rfl⟩ | ⟨rfl, rfl⟩ | ⟨rfl, rfl⟩ |
      ⟨rfl, rfl⟩ | ⟨rfl, rfl⟩ | ⟨rfl, rfl⟩ | ⟨rfl, rfl⟩
    all_goals exact ⟨_, rfl⟩
  | unit hex whole => exact ⟨_, readCodePoint_unit hex whole _ rest⟩
  | pair hex hex' isHigh isLow =>
    rw [List.cons_append, List.cons_append, List.append_assoc]
    exact ⟨_, readCodePoint_pair hex hex' isHigh isLow _ rest⟩

/-- What is read up to a quote has a meaning. -/
theorem spells_of_readContents {cursor next : Cursor} {text : Text}
    (reads : readContents .kept cursor = .ok (text, next)) :
    ∃ part, cursor.rest = part ++ '"' :: next.rest ∧ Spells part text := by
  fun_induction readContents .kept cursor generalizing text next with
  | case1 => cases reads
  | case2 offset rest =>
    obtain ⟨rfl, rfl⟩ := Prod.mk.inj (Except.ok.inj reads)
    exact ⟨[], rfl, .nil⟩
  | case3 => cases reads
  | case4 offset rest meant middle different escape ih =>
    cases inner : readContents .kept middle with
    | error fault => simp [inner, Except.map] at reads
    | ok found =>
      obtain ⟨inside, last⟩ := found
      simp only [inner, Except.map, Except.ok.injEq, Prod.mk.injEq] at reads
      obtain ⟨rfl, rfl⟩ := reads
      obtain ⟨part, rest_eq, spells⟩ := ih inner
      obtain ⟨sequence, sequence_eq, escapes⟩ := escapeSequence_of_readEscape escape
      refine ⟨'\\' :: (sequence ++ part), ?_, .escape escapes spells⟩
      dsimp only at sequence_eq
      rw [sequence_eq, rest_eq]
      simp
  | case5 => cases reads
  | case6 offset character rest noQuote noBackslash noControl ih =>
    cases inner : readContents .kept ⟨offset + character.utf8Size, rest⟩ with
    | error fault => simp [inner, Except.map] at reads
    | ok found =>
      obtain ⟨inside, last⟩ := found
      simp only [inner, Except.map, Except.ok.injEq, Prod.mk.injEq] at reads
      obtain ⟨rfl, rfl⟩ := reads
      obtain ⟨part, rest_eq, spells⟩ := ih inner
      exact ⟨character :: part, congrArg _ rest_eq, .plain noQuote noBackslash noControl spells⟩

/-- What has a meaning is read up to the quote behind it. -/
theorem Spells.reads (spells : Spells part text) (offset : Nat) (rest : Text) :
    ∃ last, readContents .kept ⟨offset, part ++ '"' :: rest⟩ = .ok (text, ⟨last, rest⟩) := by
  induction spells generalizing offset with
  | nil =>
    refine ⟨offset + 1, ?_⟩
    rw [List.nil_append, readContents, if_pos rfl]
    rfl
  | @plain character part text noQuote noBackslash noControl _ ih =>
    obtain ⟨last, reads⟩ := ih (offset + character.utf8Size)
    refine ⟨last, ?_⟩
    rw [List.cons_append, readContents, if_neg noQuote, if_neg noBackslash, if_neg noControl, reads]
    rfl
  | @escape sequence part text meant escapes _ ih =>
    obtain ⟨middle, escape⟩ := escapes.reads (offset + '\\'.utf8Size) (part ++ '"' :: rest)
    obtain ⟨last, reads⟩ := ih middle
    refine ⟨last, ?_⟩
    rw [List.cons_append, List.append_assoc, readContents, if_neg (by decide), if_pos rfl]
    split
    · rename_i fault failed
      rw [escape] at failed
      cases failed
    · rename_i found next read
      rw [escape] at read
      obtain ⟨rfl, rfl⟩ := Prod.mk.inj (Except.ok.inj read)
      rw [reads]
      rfl

/-! ### Whole texts -/

/-- The reader begins a value when it needs one. -/
theorem readOn_begin (care : Care) (stack : List Container) (cursor : Cursor) :
    readOn care ⟨stack, none, cursor⟩ = (beginValue care stack cursor).bind (readOn care) := by
  rw [readOn]
  split
  · rename_i failed
    rw [failed]
    rfl
  · rename_i begun
    rw [begun]
    rfl

/-- The reader is done with a value that is in no container. -/
theorem readOn_complete (care : Care) (value : Value) (cursor : Cursor) :
    readOn care ⟨[], some value, cursor⟩ = .ok (value, cursor) := by rw [readOn]

/-- A text that begins with a quote is read as a string literal and what follows it. -/
theorem parse_quote (rest : Text) :
    parse ('"' :: rest) =
      match readContents .kept ⟨1, rest⟩ with
      | .error fault => .error fault
      | .ok (text, next) => (expectEnd next).map fun _ => .string text := by
  have begun : beginValue .kept [] (Cursor.start ('"' :: rest)) =
      (readContents .kept ⟨1, rest⟩).map fun found => ⟨[], some (.string found.1), found.2⟩ := by
    have here : (Cursor.start ('"' :: rest)).skipBlanks = ⟨0, '"' :: rest⟩ := rfl
    have scalar : readScalar .kept ⟨0, '"' :: rest⟩ =
        (readContents .kept ⟨1, rest⟩).map fun found => (.string found.1, found.2) := rfl
    rw [beginValue, here]
    dsimp only
    rw [if_neg (by decide), scalar]
    cases readContents .kept ⟨1, rest⟩ <;> rfl
  simp only [parse, readValue, readOn_begin, begun]
  cases readContents .kept ⟨1, rest⟩ with
  | error fault => rfl
  | ok found =>
    simp only [Except.map, Except.bind, readOn_complete, bind]
    cases expectEnd found.2 <;> rfl

/-- Behind the value at the end of a text there are blanks only. -/
theorem isBlank_of_expectEnd {cursor : Cursor} (ends : expectEnd cursor = .ok ()) :
    ∀ character ∈ cursor.rest, Text.isBlank character = true := by
  rw [← List.dropWhile_eq_nil_iff]
  cases rest_eq : cursor.rest.dropWhile Text.isBlank with
  | nil => rfl
  | cons first rest => simp [expectEnd, Cursor.skipBlanks, Cursor.skipWhile, rest_eq] at ends

/-- **A text in quotes is read as exactly what it spells.** The quote at its end
is no blank, so it is the one that ends the literal. -/
theorem parse_quoted_iff : parse ('"' :: part ++ ['"']) = .ok (.string text) ↔ Spells part text := by
  rw [List.cons_append, parse_quote]
  constructor
  · intro reads
    cases contents : readContents .kept ⟨1, part ++ ['"']⟩ with
    | error fault => simp [contents] at reads
    | ok found =>
      obtain ⟨inside, next⟩ := found
      simp only [contents] at reads
      obtain ⟨part', rest_eq, spells⟩ := spells_of_readContents contents
      cases ends : expectEnd next with
      | error fault => simp [ends, Except.map] at reads
      | ok _ =>
        obtain rfl : inside = text := by simpa [ends, Except.map] using reads
        rcases List.eq_nil_or_concat next.rest with none | ⟨front, last, some⟩
        · rw [none] at rest_eq
          obtain ⟨rfl, _⟩ := List.append_inj' rest_eq rfl
          exact spells
        · have blank := isBlank_of_expectEnd ends last (by simp [some])
          have quote : ['"'] = [last] := by
            rw [some, List.concat_eq_append, ← List.cons_append, ← List.append_assoc] at rest_eq
            exact (List.append_inj' rest_eq rfl).2
          obtain rfl : '"' = last := List.singleton_inj.mp quote
          cases blank
  · intro spells
    obtain ⟨last, reads⟩ := spells.reads 1 []
    rw [reads]
    rfl

end Stencil.Json
