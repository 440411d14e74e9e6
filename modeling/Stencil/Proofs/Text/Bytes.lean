import Mathlib.Data.Char
import Mathlib.Data.List.Basic
import Stencil.Text.Bytes

/-! Texts as bytes. The first byte of a character never occurs inside of one,
so a text can be sliced exactly at the bytes that begin a character, and a text
is found among the bytes of another one only where it stands in the other one.
Texts come in the same order as their bytes. -/
namespace Stencil.Text

/-- A character is one first byte and then others. -/
theorem exists_first_byte (character : Char) :
    ∃ first later, String.utf8EncodeChar character = first :: later ∧ first.IsUTF8FirstByte ∧
      ∀ byte ∈ later, ¬ byte.IsUTF8FirstByte := by
  have isFirst {index : Nat} (inside : index < (String.utf8EncodeChar character).length) :
      (String.utf8EncodeChar character)[index].IsUTF8FirstByte ↔ index = 0 :=
    UInt8.isUTF8FirstByte_getElem_utf8EncodeChar
  have positive : 0 < (String.utf8EncodeChar character).length := by
    rw [String.length_utf8EncodeChar]
    exact character.utf8Size_pos
  obtain ⟨first, later, encoded⟩ := List.exists_cons_of_length_pos positive
  simp only [encoded] at isFirst
  refine ⟨first, later, encoded, (isFirst (Nat.zero_lt_succ _)).mpr rfl, fun byte member => ?_⟩
  obtain ⟨index, inside, rfl⟩ := List.getElem_of_mem member
  intro claimed
  have impossible := (isFirst (Nat.succ_lt_succ inside)).mp claimed
  cases impossible

theorem isFirstByte_of_bytes {text : Text} {first : UInt8} {later : List UInt8} (begins : bytes text = first :: later) :
    first.IsUTF8FirstByte := by
  cases text with
  | nil => cases begins
  | cons character rest =>
    obtain ⟨byte, more, encoded, isFirst, _⟩ := exists_first_byte character
    rw [bytes_cons, encoded, List.cons_append] at begins
    obtain ⟨rfl, _⟩ := List.cons.inj begins
    exact isFirst

/-- Bytes that begin with a character do so with one only. -/
theorem character_unique {character other : Char} {rest rest' : List UInt8}
    (same : String.utf8EncodeChar character ++ rest = String.utf8EncodeChar other ++ rest') :
    character = other ∧ rest = rest' := by
  have decoded (found : Char) (rest : List UInt8) :
      ByteArray.utf8DecodeChar? (String.utf8EncodeChar found ++ rest).toByteArray 0 = some found := by
    rw [List.toByteArray_append]
    exact ByteArray.utf8DecodeChar?_utf8EncodeChar_append
  have read := decoded character rest
  rw [same, decoded other rest'] at read
  obtain rfl := Option.some.inj read
  exact ⟨rfl, List.append_cancel_left same⟩

/-- The bytes of a text after those of another text are the bytes of the rest. -/
theorem eq_append_of_bytes {opening text : Text} {rest : List UInt8} (division : bytes text = bytes opening ++ rest) :
    ∃ back, text = opening ++ back ∧ rest = bytes back := by
  induction opening generalizing text with
  | nil => exact ⟨text, rfl, division.symm⟩
  | cons wanted opening ih =>
    cases text with
    | nil =>
      obtain ⟨first, later, encoded, _⟩ := exists_first_byte wanted
      simp [encoded] at division
    | cons found text =>
      rw [bytes_cons, bytes_cons, List.append_assoc] at division
      obtain ⟨rfl, later⟩ := character_unique division
      obtain ⟨back, rfl, rest_eq⟩ := ih later
      exact ⟨back, rfl, rest_eq⟩

theorem isBoundary_append (front back : Text) : isBoundary (bytes (front ++ back)) (size front) = true := by
  rw [isBoundary, bytes_append, ← length_bytes front, List.getElem?_append_right (Nat.le_refl _), Nat.sub_self]
  cases back with
  | nil => simp
  | cons character rest =>
    obtain ⟨first, later, encoded, isFirst, _⟩ := exists_first_byte character
    simpa [encoded] using isFirst

/-- **A text can be cut exactly at its boundaries.** -/
theorem isBoundary_iff {text : Text} {place : Nat} :
    isBoundary (bytes text) place = true ↔ ∃ front back, text = front ++ back ∧ place = size front := by
  constructor
  · intro boundary
    induction text generalizing place with
    | nil => exact ⟨[], [], rfl, of_decide_eq_true boundary⟩
    | cons character rest ih =>
      have width := String.length_utf8EncodeChar character
      by_cases inside : place < character.utf8Size
      · have atPlace : (bytes (character :: rest))[place]? = some (String.utf8EncodeChar character)[place] := by
          rw [bytes_cons, List.getElem?_append_left (width ▸ inside), List.getElem?_eq_getElem]
        have isFirst : (String.utf8EncodeChar character)[place].IsUTF8FirstByte := by
          rw [isBoundary, atPlace] at boundary
          exact of_decide_eq_true boundary
        exact ⟨[], character :: rest, rfl, UInt8.isUTF8FirstByte_getElem_utf8EncodeChar.mp isFirst⟩
      · have later : isBoundary (bytes rest) (place - character.utf8Size) = true := by
          rw [isBoundary, bytes_cons, List.getElem?_append_right (by omega), width] at boundary
          rw [isBoundary, ← boundary]
          split
          · rfl
          · simp only [List.length_append, width]
            congr 1
            exact propext (by omega)
        obtain ⟨front, back, rfl, size_eq⟩ := ih later
        exact ⟨character :: front, back, rfl, by rw [size_cons]; omega⟩
  · rintro ⟨front, back, rfl, rfl⟩
    exact isBoundary_append front back

/-- **A text is found among the bytes of another one only where it stands.** -/
theorem eq_append_of_bytes_infix {part text : Text} {before after : List UInt8} (some : part ≠ [])
    (division : bytes text = before ++ bytes part ++ after) :
    ∃ front back, text = front ++ part ++ back ∧ before = bytes front ∧ after = bytes back := by
  obtain ⟨character, later, rfl⟩ := List.exists_cons_of_ne_nil some
  obtain ⟨first, more, encoded, isFirst, _⟩ := exists_first_byte character
  have boundary : isBoundary (bytes text) before.length = true := by
    rw [isBoundary, division, List.append_assoc, List.getElem?_append_right (Nat.le_refl _), Nat.sub_self]
    simpa [encoded] using isFirst
  obtain ⟨front, back, rfl, size_eq⟩ := isBoundary_iff.mp boundary
  rw [bytes_append, List.append_assoc] at division
  obtain ⟨rfl, later_eq⟩ := List.append_inj division (by rw [length_bytes, size_eq])
  obtain ⟨back, rfl, after_eq⟩ := eq_append_of_bytes later_eq
  exact ⟨front, back, by rw [List.append_assoc], rfl, after_eq⟩

/-! ### Order -/

private theorem utf8EncodeChar_cases (character : Char) :
    let number := character.val.toNat
    number < 128 ∧ String.utf8EncodeChar character = [.ofNat number] ∨
      128 ≤ number ∧ number < 2048 ∧
        String.utf8EncodeChar character = [.ofNat (number / 64 + 192), .ofNat (number % 64 + 128)] ∨
      2048 ≤ number ∧ number < 65536 ∧ String.utf8EncodeChar character =
        [.ofNat (number / 64 / 64 + 224), .ofNat (number / 64 % 64 + 128), .ofNat (number % 64 + 128)] ∨
      65536 ≤ number ∧ number < 1114112 ∧ String.utf8EncodeChar character =
        [.ofNat (number / 64 / 64 / 64 + 240), .ofNat (number / 64 / 64 % 64 + 128), .ofNat (number / 64 % 64 + 128),
          .ofNat (number % 64 + 128)] := by
  intro number
  have bound : number < 1114112 := by
    rcases character.valid with low | ⟨_, high⟩
    · exact Nat.lt_trans low (by decide)
    · exact high
  simp only [Nat.div_div_eq_div_mul, Nat.reduceMul]
  by_cases one : number < 128
  · exact .inl ⟨one, if_pos (Nat.le_of_lt_succ one)⟩
  by_cases two : number < 2048
  · refine .inr (.inl ⟨by omega, two, ?_⟩)
    rw [String.utf8EncodeChar, if_neg (by omega), if_pos (by omega), Nat.mod_eq_of_lt (by omega)]
  by_cases three : number < 65536
  · refine .inr (.inr (.inl ⟨by omega, three, ?_⟩))
    rw [String.utf8EncodeChar, if_neg (by omega), if_neg (by omega), if_pos (by omega), Nat.mod_eq_of_lt (by omega)]
  · refine .inr (.inr (.inr ⟨by omega, bound, ?_⟩))
    rw [String.utf8EncodeChar, if_neg (by omega), if_neg (by omega), if_neg (by omega), Nat.mod_eq_of_lt (by omega)]

/-- The bytes of the smaller of two characters come first, whatever follows them:
they differ in a byte before either ends. -/
theorem utf8EncodeChar_append_lt {character other : Char} (less : character < other) (rest rest' : List UInt8) :
    String.utf8EncodeChar character ++ rest < String.utf8EncodeChar other ++ rest' := by
  have less : character.val.toNat < other.val.toNat := UInt32.lt_iff_toNat_lt.mp less
  rcases utf8EncodeChar_cases character with ⟨below, encoded⟩ | ⟨above, below, encoded⟩ | ⟨above, below, encoded⟩ |
      ⟨above, below, encoded⟩ <;>
    rcases utf8EncodeChar_cases other with ⟨below', encoded'⟩ | ⟨above', below', encoded'⟩ |
      ⟨above', below', encoded'⟩ | ⟨above', below', encoded'⟩ <;>
    rw [encoded, encoded'] <;>
    simp only [List.cons_append, List.nil_append, List.cons_lt_cons_iff, UInt8.lt_iff_toNat_lt, ← UInt8.toNat_inj,
      UInt8.toNat_ofNat'] <;>
    omega

private theorem bytes_lt_bytes {left right : Text} (less : left < right) : bytes left < bytes right := by
  induction left generalizing right with
  | nil =>
    cases right with
    | nil => exact absurd less (List.lt_irrefl _)
    | cons other right =>
      obtain ⟨first, later, encoded, _⟩ := exists_first_byte other
      rw [bytes_cons, encoded]
      exact List.nil_lt_cons _ _
  | cons character left ih =>
    cases right with
    | nil => exact absurd less (List.not_lt_nil _)
    | cons other right =>
      rcases List.cons_lt_cons_iff.mp less with first | ⟨rfl, later⟩
      · exact utf8EncodeChar_append_lt first _ _
      · exact List.append_left_lt (ih later)

/-- **Texts come in the same order as their bytes.** -/
theorem bytes_lt_bytes_iff {left right : Text} : bytes left < bytes right ↔ left < right := by
  refine ⟨fun less => ?_, bytes_lt_bytes⟩
  by_contra notLess
  by_cases greater : right < left
  · exact List.lt_asymm less (bytes_lt_bytes greater)
  · obtain rfl := List.le_antisymm notLess greater
    exact List.lt_irrefl _ less

/-- Different texts have different bytes. -/
theorem bytes_injective {left right : Text} (same : bytes left = bytes right) : left = right := by
  by_contra different
  by_cases less : left < right
  · exact List.lt_irrefl _ (same ▸ bytes_lt_bytes less)
  · exact different (List.le_antisymm (fun greater => List.lt_irrefl _ (same ▸ bytes_lt_bytes greater)) less)

/-! ### Bytes and ASCII -/

/-- A character of ASCII is one byte, its number. -/
theorem utf8EncodeChar_ascii {character : Char} (ascii : character.toNat < 128) :
    String.utf8EncodeChar character = [character.toUInt8] := by
  have below : character.val.toNat < 128 := ascii
  rw [String.utf8EncodeChar, if_pos (Nat.le_of_lt_succ below)]
  rfl

theorem size_ascii {character : Char} (ascii : character.toNat < 128) : size [character] = 1 := by
  rw [← length_bytes, bytes_cons, utf8EncodeChar_ascii ascii]
  rfl

theorem toNat_toUInt8 {character : Char} (ascii : character.toNat < 128) :
    character.toUInt8.toNat = character.toNat :=
  Nat.mod_eq_of_lt (Nat.lt_trans ascii (by decide))

/-- All bytes of the characters outside of ASCII are outside of ASCII. -/
theorem le_toNat_of_mem_utf8EncodeChar {character : Char} (outside : 128 ≤ character.toNat) {byte : UInt8}
    (member : byte ∈ String.utf8EncodeChar character) : 128 ≤ byte.toNat := by
  have above : 128 ≤ character.val.toNat := outside
  rcases utf8EncodeChar_cases character with ⟨below, _⟩ | ⟨_, below, encoded⟩ | ⟨_, below, encoded⟩ |
    ⟨_, below, encoded⟩
  · omega
  all_goals
    simp only [encoded, List.mem_cons, List.not_mem_nil, or_false] at member
    rcases member with rfl | rfl | rfl | rfl <;>
    · simp only [UInt8.toNat_ofNat']
      omega

/-- Below a bound in ASCII are the bytes of the characters below that bound. -/
theorem toNat_lt_iff {bound : Nat} (ascii : bound ≤ 128) {character : Char} {byte : UInt8}
    (member : byte ∈ String.utf8EncodeChar character) : byte.toNat < bound ↔ character.toNat < bound := by
  by_cases low : character.toNat < 128
  · rw [utf8EncodeChar_ascii low, List.mem_singleton] at member
    rw [member, toNat_toUInt8 low]
  · have high := le_toNat_of_mem_utf8EncodeChar (Nat.le_of_not_lt low) member
    omega

end Stencil.Text
