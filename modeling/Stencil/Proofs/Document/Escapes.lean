import Mathlib.Data.List.Induction
import Stencil.Proofs.Code.Digits
import Stencil.Proofs.Document.Beginnings

/-! Escape sequences in the contents of string literals. In the middle of a
literal the reader remembers whether it is between two characters of the
literal or inside of an escape sequence, and so it knows which characters belong
to escape sequences. Digits that are put into a literal belong to none, unless
they stand behind the beginning of a `\u` escape that lacks digits: then as many
of them belong to it as it lacks. -/
namespace Stencil.Document

/-- An escape sequence. -/
inductive IsEscape : Text → Prop where
  | short {character : Char} (known : isShortEscape character = true) : IsEscape ['\\', character]
  | unicode {first second third fourth : Char} (one : Text.isHexDigit first = true)
      (two : Text.isHexDigit second = true) (three : Text.isHexDigit third = true)
      (four : Text.isHexDigit fourth = true) : IsEscape ['\\', 'u', first, second, third, fourth]

/-- The byte at a place in the contents of a literal belongs to an escape sequence. -/
def InEscape (contents : Text) (place : Nat) : Prop :=
  ∃ front escape back, contents = front ++ escape ++ back ∧ Contents front ∧ IsEscape escape ∧
    Text.size front ≤ place ∧ place < Text.size front + Text.size escape

/-- A text ends with the beginning of a `\u` escape that has these hexadecimal
digits of its own and lacks others. -/
def Unfinished (text own : Text) : Prop :=
  ∃ front, text = front ++ '\\' :: 'u' :: own ∧ Contents front ∧ own.length < 4 ∧
    ∀ digit ∈ own, Text.isHexDigit digit = true

/-- What was read of a literal, by what the reader remembers of it. -/
def Quoted.Remembers : Quoted → Text → Prop
  | .plain, text => Contents text
  | .escape, text => ∃ front, text = front ++ ['\\'] ∧ Contents front
  | .hex more, text => ∃ own, Unfinished text own ∧ own.length + more = 3

/-- A character of a literal is remembered. -/
theorem Quoted.Remembers.step {quoted next : Quoted} {text : Text} {character : Char}
    (remembers : quoted.Remembers text) (taken : stepQuoted quoted character = .ok (some next)) :
    next.Remembers (text ++ [character]) := by
  cases quoted with
  | plain =>
    simp only [stepQuoted] at taken
    by_cases isQuote : character = '"'
    · simp [isQuote] at taken
    by_cases isBackslash : character = '\\'
    · obtain rfl : Quoted.escape = next := by simpa [isBackslash] using taken
      exact ⟨text, by rw [isBackslash], remembers⟩
    by_cases isControl : character.toNat < 0x20
    · simp [isQuote, isBackslash, isControl] at taken
    · obtain rfl : Quoted.plain = next := by simpa [isQuote, isBackslash, isControl] using taken
      exact Contents.append remembers (.plain isQuote isBackslash isControl .nil)
  | escape =>
    obtain ⟨front, rfl, proper⟩ := remembers
    simp only [stepQuoted] at taken
    by_cases isShort : isShortEscape character = true
    · obtain rfl : Quoted.plain = next := by simpa [isShort] using taken
      rw [List.append_assoc]
      exact proper.append (.short isShort .nil)
    by_cases isUnicode : character = 'u'
    · rw [if_neg isShort, if_pos isUnicode] at taken
      obtain rfl : Quoted.hex 3 = next := by simpa using taken
      refine ⟨[], ⟨front, ?_, proper, by decide, by simp⟩, rfl⟩
      rw [List.append_assoc, isUnicode]
      rfl
    · simp [isShort, isUnicode] at taken
  | hex more =>
    obtain ⟨own, ⟨front, rfl, proper, short, allHex⟩, length⟩ := remembers
    by_cases isHex : Text.isHexDigit character = true
    · have allHex' : ∀ digit ∈ own ++ [character], Text.isHexDigit digit = true := by
        intro digit member
        rcases List.mem_append.mp member with earlier | isLast
        · exact allHex digit earlier
        · exact List.mem_singleton.mp isLast ▸ isHex
      obtain rfl : (if more = 0 then Quoted.plain else .hex (more - 1)) = next := by
        simpa [stepQuoted, isHex] using taken
      by_cases last : more = 0
      · rw [if_pos last, Remembers, List.append_assoc]
        obtain ⟨first, second, third, rfl⟩ : ∃ first second third, own = [first, second, third] :=
          List.length_eq_three.mp (by omega)
        exact proper.append (.unicode (allHex first (by simp)) (allHex second (by simp))
          (allHex third (by simp)) isHex .nil)
      · rw [if_neg last]
        have longer : (own ++ [character]).length = own.length + 1 := by simp
        exact ⟨own ++ [character], ⟨front, by simp, proper, by omega, allHex'⟩, by omega⟩
    · simp [stepQuoted, isHex] at taken

/-- What the reader remembers of the contents of a literal. -/
theorem remembers_of_readQuoted {quoted : Quoted} {text : Text} (inside : readQuoted .plain text = some quoted) :
    quoted.Remembers text := by
  induction text using List.reverseRecOn generalizing quoted with
  | nil =>
    obtain rfl := Option.some.inj inside
    exact Contents.nil
  | append_singleton text character ih =>
    rw [readQuoted_append, Option.bind_eq_some_iff] at inside
    obtain ⟨before, earlier, last⟩ := inside
    have taken : stepQuoted before character = .ok (some quoted) := by
      cases outcome : stepQuoted before character with
      | error stop => simp [readQuoted, outcome] at last
      | ok next =>
        cases next with
        | none => simp [readQuoted, outcome] at last
        | some next => simpa [readQuoted, outcome] using last
    exact (ih earlier).step taken

/-! ### Where escape sequences are -/

/-- What a lexeme says about the text between its quotes. -/
def Lexeme.Proper : Lexeme → Prop
  | .string contents | .quotedKey contents => Contents contents
  | .blank _ | .mark _ | .integer _ | .decimal _ | .word _ | .bareKey _ => True

theorem Blanks.proper {blanks : List Lexeme} (only : Blanks blanks) : ∀ lexeme ∈ blanks, lexeme.Proper := by
  intro lexeme member
  obtain ⟨character, rfl, _⟩ := only lexeme member
  trivial

/-- The rules let nothing else than contents of literals stand between quotes. -/
theorem Phrase.proper {part : Part} {lexemes : List Lexeme} (phrase : Phrase part lexemes) :
    ∀ lexeme ∈ lexemes, lexeme.Proper := by
  induction phrase with
  | string proper => simpa [Lexeme.Proper] using proper
  | integer | decimal | word => simp [Lexeme.Proper]
  | array _ ih | object _ ih => simpa [Lexeme.Proper, or_imp, forall_and] using ih
  | spaced front _ back ih => simpa [or_imp, forall_and] using ⟨front.proper, ih, back.proper⟩
  | noItems only | noMembers only => exact only.proper
  | lastItem _ ih | lastMember _ ih => exact ih
  | nextItem _ _ first others | nextMember _ _ first others =>
    simpa [Lexeme.Proper, or_imp, forall_and] using ⟨first, others⟩
  | @member key node before between value name front isKey middle _ ih =>
    have named : name.Proper := by
      cases isKey with
      | bare => trivial
      | quoted proper => exact proper
    simpa [Lexeme.Proper, or_imp, forall_and] using ⟨front.proper, named, middle.proper, ih⟩

/-- What comes after contents of a literal in contents of a literal is contents of a literal. -/
theorem Contents.rest {front back : Text} (whole : Contents (front ++ back)) (proper : Contents front) :
    Contents back := by
  have read := whole.readQuoted
  rw [readQuoted_append, proper.readQuoted, Option.bind_some] at read
  exact completes_of_readQuoted read

/-- Contents that begin with a backslash begin with an escape sequence, which
is the longer one if the letter u comes next. -/
theorem Contents.begins {rest : Text} (proper : Contents ('\\' :: rest)) :
    ∃ escape back, '\\' :: rest = escape ++ back ∧ IsEscape escape ∧ 2 ≤ escape.length ∧
      (rest.head? = some 'u' → escape.length = 6) := by
  cases proper with
  | plain _ noBackslash => exact absurd rfl noBackslash
  | @short character rest known after =>
    refine ⟨_, rest, rfl, .short known, Nat.le_refl 2, fun isUnicode => ?_⟩
    obtain rfl := Option.some.inj isUnicode
    cases known
  | unicode one two three four after =>
    exact ⟨_, _, rfl, .unicode one two three four, Nat.le_add_left 2 4, fun _ => rfl⟩

/-- An escape sequence is a backslash and one other character, unless that is the letter u. -/
theorem IsEscape.shape {escape : Text} (isEscape : IsEscape escape) :
    ∃ second rest, escape = '\\' :: second :: rest ∧ (rest = [] ∨ second = 'u' ∧ rest.length = 4) := by
  cases isEscape with
  | short known => exact ⟨_, [], rfl, .inl rfl⟩
  | unicode one two three four => exact ⟨'u', _, rfl, .inr ⟨rfl, rfl⟩⟩

/-- In the middle of an escape sequence the reader is not between two characters
of the literal: there is no room for an escape sequence that ends there. -/
theorem IsEscape.not_contents_part {part more : Text} {character : Char}
    (isEscape : IsEscape (part ++ character :: more)) (proper : Contents part) : part = [] ∧ character = '\\' := by
  obtain ⟨second, rest, escape_eq, ending⟩ := isEscape.shape
  cases part with
  | nil => exact ⟨rfl, (List.cons.inj escape_eq).1⟩
  | cons first part =>
    obtain ⟨rfl, part_eq⟩ : first = '\\' ∧ part ++ character :: more = second :: rest := List.cons.inj escape_eq
    obtain ⟨escape, later, begins, _, long, longer⟩ := proper.begins
    have lengths := congrArg List.length begins
    have room := congrArg List.length part_eq
    simp only [List.length_cons, List.length_append] at lengths room
    rcases ending with rfl | ⟨rfl, rest_length⟩
    · simp only [List.length_nil] at room
      omega
    · have nonempty : part ≠ [] := by
        rintro rfl
        simp only [List.length_nil] at lengths
        omega
      have next : part.head? = some 'u' := by
        have same := congrArg List.head? part_eq
        rwa [List.head?_append_of_ne_nil _ nonempty] at same
      have six := longer next
      omega

private theorem split_beyond {front back escape later : Text} {character : Char}
    (division : front ++ character :: back = escape ++ later) (beyond : ¬ escape <+: front) :
    ∃ more, escape = front ++ character :: more := by
  rcases List.append_eq_append_iff.mp division with ⟨inner, rfl, rest_eq⟩ | ⟨inner, rfl, _⟩
  · cases inner with
    | nil => simp at beyond
    | cons first more =>
      obtain ⟨rfl, _⟩ := List.cons.inj rest_eq
      exact ⟨more, rfl⟩
  · exact absurd (List.prefix_append escape inner) beyond

/-- The character behind a first part of the contents of a literal belongs to an
escape sequence unless whole characters and escape sequences stand in front of
it and it begins no escape sequence. -/
theorem inEscape_iff {front back : Text} {character : Char} (proper : Contents (front ++ character :: back)) :
    InEscape (front ++ character :: back) (Text.size front) ↔ (Contents front → character = '\\') := by
  constructor
  · rintro ⟨earlier, escape, later, division, whole, isEscape, begins, ends⟩ between
    rw [List.append_assoc] at division
    obtain ⟨part, rfl, rest_eq⟩ : ∃ part, front = earlier ++ part ∧
        part ++ character :: back = escape ++ later := by
      rcases List.append_eq_append_iff.mp division with ⟨inner, rfl, rest_eq⟩ | ⟨part, rfl, rest_eq⟩
      · have none : inner = [] := by
          rw [← Text.size_eq_zero_iff]
          rw [Text.size_append] at begins
          omega
        subst none
        exact ⟨[], by simp, rest_eq⟩
      · exact ⟨part, rfl, rest_eq.symm⟩
    have beyond : ¬ escape <+: part := by
      rintro ⟨inner, rfl⟩
      simp only [Text.size_append] at ends
      omega
    obtain ⟨more, rfl⟩ := split_beyond rest_eq beyond
    exact (isEscape.not_contents_part (between.rest whole)).2
  · intro inside
    obtain ⟨earlier, part, rest, rfl, whole, begins, short⟩ : ∃ earlier part rest, front = earlier ++ part ∧
        Contents earlier ∧ part ++ character :: back = '\\' :: rest ∧
        (part.length < 2 ∨ part.length < 6 ∧ rest.head? = some 'u') := by
      have read := proper.readQuoted
      rw [readQuoted_append, Option.bind_eq_some_iff] at read
      obtain ⟨quoted, read, _⟩ := read
      cases quoted with
      | plain =>
        have between : Contents front := remembers_of_readQuoted read
        exact ⟨front, [], back, by simp, between, by rw [inside between]; rfl, .inl Nat.zero_lt_two⟩
      | escape =>
        obtain ⟨earlier, rfl, whole⟩ := remembers_of_readQuoted read
        exact ⟨earlier, ['\\'], _, rfl, whole, rfl, .inl Nat.one_lt_two⟩
      | hex more =>
        obtain ⟨own, ⟨earlier, rfl, whole, few, _⟩, _⟩ := remembers_of_readQuoted read
        refine ⟨earlier, _, _, rfl, whole, rfl, .inr ⟨?_, rfl⟩⟩
        simp only [List.length_cons]
        omega
    rw [List.append_assoc, begins] at proper ⊢
    obtain ⟨escape, later, rest_eq, isEscape, long, longer⟩ := (proper.rest whole).begins
    have beyond : ¬ escape <+: part := by
      intro ends
      have fewer := ends.length_le
      rcases short with short | ⟨short, isUnicode⟩
      · omega
      · have six := longer isUnicode
        omega
    obtain ⟨more, escape_eq⟩ := split_beyond (begins.trans rest_eq) beyond
    refine ⟨earlier, escape, later, by rw [rest_eq, List.append_assoc], whole, isEscape, ?_, ?_⟩
    · simp
    · have positive := character.utf8Size_pos
      simp only [escape_eq, Text.size_append, Text.size_cons]
      omega

/-! ### Digits in a literal -/

theorem isHexDigit_digit {digit : Char} (isDigit : digit.isDigit = true) : Text.isHexDigit digit = true := by
  simp [Text.isHexDigit, isDigit]

/-- Digits go on with a `\u` escape until it has all of its digits. -/
theorem readQuoted_hex {more : Nat} {digits : Text} (run : ∀ digit ∈ digits, digit.isDigit = true) :
    readQuoted (.hex more) digits =
      some (if digits.length ≤ more then .hex (more - digits.length) else .plain) := by
  induction digits generalizing more with
  | nil => rfl
  | cons first rest ih =>
    have isHex := isHexDigit_digit (run first (List.mem_cons_self ..))
    have later : ∀ digit ∈ rest, digit.isDigit = true := fun digit member => run digit (List.mem_cons_of_mem first member)
    by_cases last : more = 0
    · subst last
      simp [readQuoted, stepQuoted, isHex, (contents_of_digits later).readQuoted]
    · simp only [readQuoted, stepQuoted, isHex, ↓reduceIte, last, ih later, List.length_cons]
      congr 1
      by_cases fits : rest.length ≤ more - 1
      · rw [if_pos fits, if_pos (by omega), Nat.sub_sub, Nat.add_comm 1]
      · rw [if_neg fits, if_neg (by omega)]

variable {before digits after : Text}

/-- A digit belongs to an escape sequence unless whole characters and escape
sequences stand in front of it. -/
theorem Contents.inEscape_digit (proper : Contents (before ++ digits ++ after))
    (run : ∀ digit ∈ digits, digit.isDigit = true) {index : Nat} (inside : index < digits.length) :
    InEscape (before ++ digits ++ after) (Text.size before + index) ↔
      ¬ Contents (before ++ digits.take index) := by
  have front_run : ∀ digit ∈ digits.take index, digit.isDigit = true :=
    fun digit member => run digit (List.mem_of_mem_take member)
  have place : Text.size before + index = Text.size (before ++ digits.take index) := by
    rw [Text.size_append, Decimal.size_of_digits front_run, List.length_take, Nat.min_eq_left (Nat.le_of_lt inside)]
  have digits_eq : digits.take index ++ digits[index] :: digits.drop (index + 1) = digits := by
    rw [← List.drop_eq_getElem_cons inside, List.take_append_drop]
  have division : before ++ digits ++ after =
      before ++ digits.take index ++ digits[index] :: (digits.drop (index + 1) ++ after) := by
    conv => lhs; rw [← digits_eq]
    simp only [List.append_assoc, List.cons_append]
  have noBackslash : digits[index] ≠ '\\' := isDigit_ne (run _ (List.getElem_mem inside)) rfl
  rw [division] at proper ⊢
  rw [place, inEscape_iff proper]
  exact imp_iff_not noBackslash

/-- **What escape sequences take of digits.** Digits in a literal, at least four
of them, do not come after the backslash of an escape sequence. They belong to
no escape sequence, or the text in front of them ends with the beginning of a
`\u` escape, which takes as many of them as it lacks. -/
theorem Contents.digits_in_escapes (proper : Contents (before ++ digits ++ after))
    (run : ∀ digit ∈ digits, digit.isDigit = true) (long : 4 ≤ digits.length) :
    Contents after ∧ (∀ whole, Contents whole → before ≠ whole ++ ['\\']) ∧
      ((Contents before ∧
          ∀ index < digits.length, ¬ InEscape (before ++ digits ++ after) (Text.size before + index)) ∨
        ∃ own, Unfinished before own ∧ ∀ index < digits.length,
          (InEscape (before ++ digits ++ after) (Text.size before + index) ↔ own.length + index < 4)) := by
  have read := proper.readQuoted
  rw [List.append_assoc, readQuoted_append, Option.bind_eq_some_iff] at read
  obtain ⟨quoted, read_before, read⟩ := read
  rw [readQuoted_append, Option.bind_eq_some_iff] at read
  obtain ⟨quoted', read_digits, read_after⟩ := read
  have noEscape : quoted ≠ .escape := by
    rintro rfl
    cases digits with
    | nil => cases long
    | cons first rest =>
      have digit := run first (List.mem_cons_self ..)
      have refused : stepQuoted .escape first = .error ⟨.escape, []⟩ := by
        simp [stepQuoted, isShortEscape, isDigit_ne digit]
      simp [Document.readQuoted, refused] at read_digits
  have noBackslash : ∀ whole, Contents whole → before ≠ whole ++ ['\\'] := by
    rintro whole between rfl
    rw [readQuoted_append, between.readQuoted, Option.bind_some] at read_before
    exact noEscape (Option.some.inj read_before).symm
  cases quoted with
  | plain =>
    have between : Contents before := remembers_of_readQuoted read_before
    obtain rfl : Quoted.plain = quoted' := by
      rw [(contents_of_digits run).readQuoted] at read_digits
      exact Option.some.inj read_digits
    refine ⟨completes_of_readQuoted read_after, noBackslash, .inl ⟨between, fun index inside => ?_⟩⟩
    rw [proper.inEscape_digit run inside, not_not]
    exact between.append (contents_of_digits fun digit member => run digit (List.mem_of_mem_take member))
  | escape => exact absurd rfl noEscape
  | hex more =>
    obtain ⟨own, unfinished, length⟩ := remembers_of_readQuoted read_before
    obtain rfl : Quoted.plain = quoted' := by
      rw [readQuoted_hex run, if_neg (by omega)] at read_digits
      exact Option.some.inj read_digits
    refine ⟨completes_of_readQuoted read_after, noBackslash, .inr ⟨own, unfinished, fun index inside => ?_⟩⟩
    have read_part : Document.readQuoted .plain (before ++ digits.take index) =
        some (if index ≤ more then .hex (more - index) else .plain) := by
      rw [readQuoted_append, read_before, Option.bind_some,
        readQuoted_hex fun digit member => run digit (List.mem_of_mem_take member), List.length_take,
        Nat.min_eq_left (Nat.le_of_lt inside)]
    have between : Contents (before ++ digits.take index) ↔ more < index := by
      constructor
      · intro between
        rw [between.readQuoted] at read_part
        by_cases fits : index ≤ more
        · rw [if_pos fits] at read_part
          cases read_part
        · omega
      · intro beyond
        rw [if_neg (by omega)] at read_part
        exact completes_of_readQuoted read_part
    rw [proper.inEscape_digit run inside, between]
    omega

end Stencil.Document
