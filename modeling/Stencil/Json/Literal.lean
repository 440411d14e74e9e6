import Stencil.Json.Cursor

/-! The reading of string literals. Escapes are resolved; a code point beyond
the first plane is written as two escapes, which only count together. A value
that is of no interest is skipped with less care: its escapes must have the
right shape, but are not resolved. -/

namespace Stencil.Json

/-- Whether a value that is read is kept or skipped. -/
inductive Care where
  | kept
  | skipped
deriving DecidableEq, Repr

/-- The number that a hexadecimal digit stands for. -/
def hexValue (digit : Char) : Nat :=
  if digit.isDigit then digit.toNat - '0'.toNat
  else if 'a' ≤ digit then digit.toNat - 'a'.toNat + 10
  else digit.toNat - 'A'.toNat + 10

/-- Reads four hexadecimal digits. A fault in them is counted behind four
bytes, or at the end of the text if there are fewer. -/
def readHex (cursor : Cursor) : Except Fault (Nat × Cursor) :=
  let bad : Except Fault (Nat × Cursor) :=
    if 4 ≤ Text.size cursor.rest then .error ⟨.badEscape, some (cursor.offset + 4)⟩
    else .error ⟨.endInString, some (cursor.offset + Text.size cursor.rest)⟩
  match cursor.rest with
  | first :: second :: third :: fourth :: rest =>
    if [first, second, third, fourth].all Text.isHexDigit then
      .ok (((hexValue first * 16 + hexValue second) * 16 + hexValue third) * 16 + hexValue fourth,
        ⟨cursor.offset + 4, rest⟩)
    else bad
  | _ => bad

/-- Reads a character that the second half of a surrogate pair needs. -/
def expectInPair (cursor : Cursor) (wanted : Char) : Except Fault Cursor :=
  match cursor.rest with
  | [] => .error (cursor.fault .endInString)
  | found :: rest =>
    if found = wanted then .ok ⟨cursor.offset + found.utf8Size, rest⟩
    else .error (cursor.faultBehind .endOfSurrogatePair)

/-- Reads what follows the `u` of an escape. -/
def readCodePoint (care : Care) (cursor : Cursor) : Except Fault (Char × Cursor) := do
  let (unit, afterUnit) ← readHex cursor
  if care = .skipped || unit < 0xD800 || 0xDFFF < unit then
    return (Char.ofNat unit, afterUnit)
  if 0xDC00 ≤ unit then
    throw (afterUnit.fault .loneSurrogate)
  let afterBackslash ← expectInPair afterUnit '\\'
  let afterMark ← expectInPair afterBackslash 'u'
  let (low, afterLow) ← readHex afterMark
  if low < 0xDC00 || 0xDFFF < low then
    throw (afterLow.fault .loneSurrogate)
  return (Char.ofNat (0x10000 + (unit - 0xD800) * 0x400 + (low - 0xDC00)), afterLow)

/-- Reads what follows a backslash. -/
def readEscape (care : Care) (cursor : Cursor) : Except Fault (Char × Cursor) :=
  match cursor.rest with
  | [] => .error (cursor.fault .endInString)
  | mark :: rest =>
    let after : Cursor := ⟨cursor.offset + mark.utf8Size, rest⟩
    match mark with
    | '"' => .ok ('"', after)
    | '\\' => .ok ('\\', after)
    | '/' => .ok ('/', after)
    | 'b' => .ok ('\x08', after)
    | 'f' => .ok ('\x0c', after)
    | 'n' => .ok ('\n', after)
    | 'r' => .ok ('\r', after)
    | 't' => .ok ('\t', after)
    | 'u' => readCodePoint care after
    | _ => .error (cursor.faultBehind .badEscape)

theorem length_le_of_readHex {cursor next : Cursor} {value : Nat}
    (reads : readHex cursor = .ok (value, next)) : next.rest.length ≤ cursor.rest.length := by
  obtain ⟨offset, rest⟩ := cursor
  simp only [readHex] at reads
  split at reads
  · split at reads
    · simp only [Except.ok.injEq, Prod.mk.injEq] at reads
      simp only [← reads.2, List.length_cons]
      omega
    · split at reads <;> simp at reads
  · split at reads <;> simp at reads

theorem length_le_of_expectInPair {cursor next : Cursor} {wanted : Char}
    (reads : expectInPair cursor wanted = .ok next) : next.rest.length ≤ cursor.rest.length := by
  obtain ⟨offset, rest⟩ := cursor
  cases rest with
  | nil => simp [expectInPair] at reads
  | cons found rest =>
    simp only [expectInPair] at reads
    split at reads
    · simp only [Except.ok.injEq] at reads
      simp [← reads]
    · simp at reads

theorem length_le_of_readCodePoint {care : Care} {cursor next : Cursor} {character : Char}
    (reads : readCodePoint care cursor = .ok (character, next)) :
    next.rest.length ≤ cursor.rest.length := by
  unfold readCodePoint at reads
  cases hex : readHex cursor with
  | error fault =>
    rw [hex] at reads
    cases reads
  | ok first =>
    obtain ⟨unit, afterUnit⟩ := first
    have first_le := length_le_of_readHex hex
    simp only [hex, bind, Except.bind, pure, Except.pure, throw, throwThe, MonadExceptOf.throw] at reads
    split at reads
    · simp only [Except.ok.injEq, Prod.mk.injEq] at reads
      exact reads.2 ▸ first_le
    · split at reads
      · cases reads
      · cases back : expectInPair afterUnit '\\' with
        | error fault => simp [back] at reads
        | ok afterBackslash =>
          cases mark : expectInPair afterBackslash 'u' with
          | error fault => simp [back, mark] at reads
          | ok afterMark =>
            cases hex' : readHex afterMark with
            | error fault => simp [back, mark, hex'] at reads
            | ok second =>
              obtain ⟨low, afterLow⟩ := second
              have back_le := length_le_of_expectInPair back
              have mark_le := length_le_of_expectInPair mark
              have low_le := length_le_of_readHex hex'
              simp only [back, mark, hex'] at reads
              split at reads
              · simp at reads
              · simp only [Except.ok.injEq, Prod.mk.injEq] at reads
                rw [← reads.2]
                omega

theorem length_lt_of_readEscape {care : Care} {cursor next : Cursor} {character : Char}
    (reads : readEscape care cursor = .ok (character, next)) :
    next.rest.length < cursor.rest.length := by
  obtain ⟨offset, rest⟩ := cursor
  cases rest with
  | nil => simp [readEscape] at reads
  | cons mark rest =>
    simp only [readEscape] at reads
    split at reads
    all_goals first
      | (simp only [Except.ok.injEq, Prod.mk.injEq] at reads; simp [← reads.2])
      | exact Nat.lt_succ_of_le (length_le_of_readCodePoint reads)
      | simp at reads

/-- Reads the contents of a string literal and its closing quote. -/
def readContents (care : Care) (cursor : Cursor) : Except Fault (Text × Cursor) :=
  match cursor with
  | ⟨offset, []⟩ => .error ⟨.endInString, some offset⟩
  | ⟨offset, character :: rest⟩ =>
    if character = '"' then .ok ([], ⟨offset + character.utf8Size, rest⟩)
    else if character = '\\' then
      match _reads : readEscape care ⟨offset + character.utf8Size, rest⟩ with
      | .error fault => .error fault
      | .ok (meant, next) => (readContents care next).map fun (text, last) => (meant :: text, last)
    else if character.toNat < 0x20 then
      .error ⟨.controlCharacter, some (if care = .skipped then offset else offset + 1)⟩
    else
      (readContents care ⟨offset + character.utf8Size, rest⟩).map fun (text, last) =>
        (character :: text, last)
termination_by cursor.rest.length
decreasing_by
  · have := length_lt_of_readEscape _reads
    simp only [List.length_cons] at *
    omega
  · simp

/-- What follows a string literal is shorter than what follows its opening quote. -/
theorem length_lt_of_readContents {care : Care} {cursor next : Cursor} {text : Text}
    (reads : readContents care cursor = .ok (text, next)) :
    next.rest.length < cursor.rest.length := by
  fun_induction readContents care cursor generalizing text next with
  | case1 => simp at reads
  | case2 offset rest =>
    simp only [Except.ok.injEq, Prod.mk.injEq] at reads
    simp [← reads.2]
  | case3 => simp at reads
  | case4 offset rest meant middle different escape ih =>
    cases inner : readContents care middle with
    | error fault => simp [inner, Except.map] at reads
    | ok found =>
      obtain ⟨inside, last⟩ := found
      simp only [inner, Except.map, Except.ok.injEq, Prod.mk.injEq] at reads
      have shorter := ih inner
      have escape_lt := length_lt_of_readEscape escape
      simp only [List.length_cons] at *
      rw [← reads.2]
      omega
  | case5 => simp at reads
  | case6 offset character rest notQuote notBackslash notControl ih =>
    cases inner : readContents care ⟨offset + character.utf8Size, rest⟩ with
    | error fault => simp [inner, Except.map] at reads
    | ok found =>
      obtain ⟨inside, last⟩ := found
      simp only [inner, Except.map, Except.ok.injEq, Prod.mk.injEq] at reads
      have shorter := ih inner
      simp only [List.length_cons] at *
      rw [← reads.2]
      omega

end Stencil.Json
