import Stencil.Proofs.Document.Soundness
import Stencil.Proofs.Template.CodePlaces

/-! Cells: the lexemes of an encoded document with the occurrences whose codes
are in them. When every code is in one lexeme, either as the whole of it or
between whole characters of a string literal, then the lexemes divide the marks
of the template among each other. -/
namespace Stencil

open Document (Lexeme Contents textOf)

/-- A lexeme of an encoded document, by the marks that it is made of. -/
inductive Cell where
  /-- A lexeme of literal text. -/
  | plain (lexeme : Lexeme)
  /-- An occurrence in the place of a value. -/
  | value (found : Occurrence)
  /-- An occurrence in the place of a key without quotes. -/
  | key (found : Occurrence)
  /-- A string literal, by the marks between its quotes. -/
  | string (inner : List Mark)
  /-- A quoted key, by the marks between its quotes. -/
  | quotedKey (inner : List Mark)

namespace Cell

/-- The lexeme of a cell when codes stand for the occurrences. -/
def encoded : Cell → Lexeme
  | .plain lexeme => lexeme
  | .value found => .integer found.code.digits
  | .key found => .bareKey found.code.digits
  | .string inner => .string (filledOf Occurrence.encoded inner)
  | .quotedKey inner => .quotedKey (filledOf Occurrence.encoded inner)

/-- The marks that a cell takes up. -/
def marks : Cell → List Mark
  | .plain lexeme => lexeme.text.map .character
  | .value found | .key found => [.occurrence found]
  | .string inner | .quotedKey inner => .character '"' :: inner ++ [.character '"']

/-- The occurrences between quotes are in string context, and each begins where
a character of the literal or an escape sequence could begin. -/
def Between (inner : List Mark) : Prop :=
  ∀ front found back, inner = front ++ .occurrence found :: back →
    found.context = .string ∧ Contents (filledOf Occurrence.encoded front)

/-- A cell has the occurrences in the places that fit their contexts. -/
def Sound : Cell → Prop
  | .plain _ => True
  | .value found | .key found => found.context = .raw
  | .string inner | .quotedKey inner => Between inner

end Cell

/-- An occurrence has its code in a lexeme, after the given part of its text. -/
inductive Hosts (found : Occurrence) : Lexeme → Text → Prop where
  | value (isRaw : found.context = .raw) : Hosts found (.integer found.code.digits) []
  | key (isRaw : found.context = .raw) : Hosts found (.bareKey found.code.digits) []
  | string {before after : Text} (isString : found.context = .string) (proper : Contents before) :
      Hosts found (.string (before ++ found.code.digits ++ after)) ('"' :: before)
  | quotedKey {before after : Text} (isString : found.context = .string) (proper : Contents before) :
      Hosts found (.quotedKey (before ++ found.code.digits ++ after)) ('"' :: before)

/-- Every occurrence among the marks has its code in one of the lexemes. -/
def Housed (lexemes : List Lexeme) (marks : List Mark) : Prop :=
  ∀ front found back, marks = front ++ .occurrence found :: back →
    ∃ earlier lexeme later before, lexemes = earlier ++ lexeme :: later ∧ Hosts found lexeme before ∧
      filledOf Occurrence.encoded front = textOf earlier ++ before

theorem Hosts.text {found : Occurrence} {lexeme : Lexeme} {before : Text} (hosts : Hosts found lexeme before) :
    ∃ after, lexeme.text = before ++ (found.code.digits ++ after) := by
  cases hosts with
  | value | key => exact ⟨[], by simp [Lexeme.text]⟩
  | @string before after | @quotedKey before after => exact ⟨after ++ ['"'], by simp [Lexeme.text]⟩

/-- Between quotes an occurrence is in string context, and comes after whole characters. -/
theorem Hosts.between {found : Occurrence} {lexeme : Lexeme} {before contents : Text}
    (hosts : Hosts found lexeme ('"' :: before)) (quoted : lexeme = .string contents ∨ lexeme = .quotedKey contents) :
    found.context = .string ∧ Contents before := by
  rcases quoted with rfl | rfl <;> cases hosts <;> exact ⟨‹_›, ‹_›⟩

theorem contents_digits (code : Code) : Contents code.digits :=
  Document.contents_of_digits fun _ => Code.isDigit_of_mem_digits

/-- A place in an encoded text is between two marks, or inside of the code of an occurrence. -/
theorem cut_encoded {marks : List Mark} {front back : Text}
    (text_eq : filledOf Occurrence.encoded marks = front ++ back) :
    (∃ first second, marks = first ++ second ∧ filledOf Occurrence.encoded first = front ∧
      filledOf Occurrence.encoded second = back) ∨
    ∃ first found second inner rest, marks = first ++ .occurrence found :: second ∧
      found.code.digits = inner ++ rest ∧ inner ≠ [] ∧ rest ≠ [] ∧
      front = filledOf Occurrence.encoded first ++ inner := by
  induction marks generalizing front with
  | nil =>
    obtain ⟨rfl, rfl⟩ := List.append_eq_nil_iff.mp text_eq.symm
    exact .inl ⟨[], [], rfl, rfl, rfl⟩
  | cons mark rest ih =>
    rcases List.append_eq_append_iff.mp text_eq with ⟨more, rfl, rest_eq⟩ | ⟨cut, mark_eq, rfl⟩
    · rcases ih rest_eq with ⟨first, second, rfl, rfl, rfl⟩ | ⟨first, found, second, inner, tail, rfl, rest⟩
      · exact .inl ⟨mark :: first, second, rfl, rfl, rfl⟩
      · obtain ⟨digits_eq, inner_ne, tail_ne, rfl⟩ := rest
        exact .inr ⟨mark :: first, found, second, inner, tail, rfl, digits_eq, inner_ne, tail_ne, by simp⟩
    · rcases List.eq_nil_or_concat front with rfl | ⟨_, _, nonempty⟩
      · refine .inl ⟨[], mark :: rest, rfl, rfl, ?_⟩
        rw [filledOf_cons, mark_eq, List.nil_append]
        rfl
      have front_ne : front ≠ [] := by simp [nonempty]
      cases cut with
      | nil => exact .inl ⟨[mark], rest, rfl, by simpa using mark_eq, rfl⟩
      | cons next cut =>
        cases mark with
        | character char =>
          have length := congrArg List.length mark_eq
          have front_pos := List.length_pos_iff.mpr front_ne
          simp only [Mark.filled, List.length_append, List.length_cons, List.length_nil] at length
          omega
        | occurrence found => exact .inr ⟨[], found, rest, front, next :: cut, rfl, mark_eq, front_ne, by simp, rfl⟩

/-- The first lexeme has the first marks to itself, and the others have the rest. -/
theorem Housed.cons {lexeme : Lexeme} {rest : List Lexeme} {marks : List Mark}
    (housed : Housed (lexeme :: rest) marks)
    (text_eq : filledOf Occurrence.encoded marks = lexeme.text ++ textOf rest) :
    ∃ block others, marks = block ++ others ∧ filledOf Occurrence.encoded block = lexeme.text ∧
      filledOf Occurrence.encoded others = textOf rest ∧ Housed rest others ∧
      ∀ front found back, block = front ++ .occurrence found :: back →
        Hosts found lexeme (filledOf Occurrence.encoded front) := by
  rcases cut_encoded text_eq with ⟨block, others, rfl, block_eq, others_eq⟩ |
    ⟨first, found, second, inner, tail, rfl, digits_eq, inner_ne, tail_ne, lexeme_eq⟩
  · refine ⟨block, others, rfl, block_eq, others_eq, ?_, ?_⟩
    · rintro front found back rfl
      obtain ⟨earlier, host, later, before, split, hosts, front_eq⟩ :=
        housed (block ++ front) found back (by simp)
      rw [filledOf_append, block_eq] at front_eq
      cases earlier with
      | nil =>
        obtain ⟨rfl, rfl⟩ := List.cons.inj split
        obtain ⟨after, host_eq⟩ := hosts.text
        have lengths := congrArg List.length front_eq
        have host_length := congrArg List.length host_eq
        have digits_pos := List.length_pos_iff.mpr found.code.digits_ne_nil
        simp only [Document.textOf_nil, List.nil_append, List.length_append] at lengths host_length
        omega
      | cons _ earlier =>
        obtain ⟨rfl, rest_eq⟩ := List.cons.inj split
        refine ⟨earlier, host, later, before, rest_eq, hosts, ?_⟩
        rw [Document.textOf_cons, List.append_assoc] at front_eq
        exact List.append_cancel_left front_eq
    · rintro front found back rfl
      obtain ⟨earlier, host, later, before, split, hosts, front_eq⟩ :=
        housed front found (back ++ others) (by simp)
      cases earlier with
      | nil =>
        obtain ⟨rfl, rfl⟩ := List.cons.inj split
        exact front_eq ▸ hosts
      | cons _ earlier =>
        obtain ⟨rfl, rest_eq⟩ := List.cons.inj split
        have lengths := congrArg List.length block_eq
        have front_length := congrArg List.length front_eq
        have digits_pos := List.length_pos_iff.mpr found.code.digits_ne_nil
        simp only [filledOf_append, filledOf_cons, Mark.filled, Occurrence.encoded, Document.textOf_cons,
          List.length_append] at lengths front_length
        omega
  · obtain ⟨earlier, host, later, before, split, hosts, front_eq⟩ := housed first found second rfl
    have lexeme_length := congrArg List.length lexeme_eq
    have front_length := congrArg List.length front_eq
    have digits_length := congrArg List.length digits_eq
    have inner_pos := List.length_pos_iff.mpr inner_ne
    have tail_pos := List.length_pos_iff.mpr tail_ne
    cases earlier with
    | nil =>
      obtain ⟨rfl, rfl⟩ := List.cons.inj split
      obtain ⟨after, host_eq⟩ := hosts.text
      have host_length := congrArg List.length host_eq
      simp only [Document.textOf_nil, List.nil_append, List.length_append] at *
      omega
    | cons _ earlier =>
      obtain ⟨rfl, rest_eq⟩ := List.cons.inj split
      simp only [Document.textOf_cons, List.length_append] at *
      omega

/-- Quotes around an encoded text are literal. -/
theorem quoted_block {block : List Mark} {contents : Text}
    (block_eq : filledOf Occurrence.encoded block = '"' :: contents ++ ['"']) :
    ∃ inner, block = .character '"' :: inner ++ [.character '"'] ∧
      filledOf Occurrence.encoded inner = contents := by
  obtain ⟨rest, rfl, rest_eq⟩ := first_character block_eq rfl
  obtain ⟨inner, rfl, inner_eq⟩ := last_character rest_eq rfl
  exact ⟨inner, rfl, inner_eq⟩

theorem characters_of_no_occurrence {block : List Mark} (plain : ∀ found, .occurrence found ∉ block) :
    block = (filledOf Occurrence.encoded block).map .character := by
  induction block with
  | nil => rfl
  | cons mark rest ih =>
    cases mark with
    | character char =>
      have later := ih fun found member => plain found (by simp [member])
      rw [filledOf_cons, Mark.filled, List.singleton_append, List.map_cons, ← later]
    | occurrence found => exact absurd (by simp) (plain found)

private theorem block_of_whole {front back : List Mark} {found : Occurrence}
    (front_eq : filledOf Occurrence.encoded front = [])
    (block_eq : filledOf Occurrence.encoded (front ++ .occurrence found :: back) = found.code.digits) :
    front ++ .occurrence found :: back = [.occurrence found] := by
  obtain rfl := filledOf_eq_nil front_eq
  have back_eq : filledOf Occurrence.encoded back = [] := by
    simpa [Mark.filled, Occurrence.encoded] using block_eq
  rw [filledOf_eq_nil back_eq, List.nil_append]

/-- Marks that have a lexeme to themselves are a cell. -/
theorem cell_of_block {lexeme : Lexeme} {block : List Mark}
    (block_eq : filledOf Occurrence.encoded block = lexeme.text)
    (hosted : ∀ front found back, block = front ++ .occurrence found :: back →
      Hosts found lexeme (filledOf Occurrence.encoded front)) :
    ∃ cell : Cell, cell.encoded = lexeme ∧ cell.marks = block ∧ cell.Sound := by
  have between {contents : Text} (quoted : lexeme = .string contents ∨ lexeme = .quotedKey contents)
      {inner : List Mark} (inner_eq : block = .character '"' :: inner ++ [.character '"']) :
      Cell.Between inner := by
    rintro front found back rfl
    exact (hosted (.character '"' :: front) found (back ++ [.character '"']) (by simp [inner_eq])).between quoted
  by_cases plain : ∀ found, .occurrence found ∉ block
  · refine ⟨.plain lexeme, rfl, ?_, trivial⟩
    rw [Cell.marks, ← block_eq, ← characters_of_no_occurrence plain]
  · simp only [not_forall, not_not] at plain
    obtain ⟨found, member⟩ := plain
    obtain ⟨front, back, split⟩ := List.append_of_mem member
    have hosts := hosted front found back split
    generalize before_eq : filledOf Occurrence.encoded front = before at hosts
    cases hosts with
    | value isRaw =>
      rw [split] at block_eq ⊢
      exact ⟨.value found, rfl, (block_of_whole before_eq block_eq).symm, isRaw⟩
    | key isRaw =>
      rw [split] at block_eq ⊢
      exact ⟨.key found, rfl, (block_of_whole before_eq block_eq).symm, isRaw⟩
    | string =>
      obtain ⟨inner, inner_eq, contents_eq⟩ := quoted_block block_eq
      exact ⟨.string inner, by rw [Cell.encoded, contents_eq], inner_eq.symm, between (.inl rfl) inner_eq⟩
    | quotedKey =>
      obtain ⟨inner, inner_eq, contents_eq⟩ := quoted_block block_eq
      exact ⟨.quotedKey inner, by rw [Cell.encoded, contents_eq], inner_eq.symm, between (.inr rfl) inner_eq⟩

/-- **Lexemes that house all occurrences divide the marks into cells.** -/
theorem Housed.cells {lexemes : List Lexeme} {marks : List Mark} (housed : Housed lexemes marks)
    (text_eq : filledOf Occurrence.encoded marks = textOf lexemes) :
    ∃ cells : List Cell, cells.map Cell.encoded = lexemes ∧ cells.flatMap Cell.marks = marks ∧
      ∀ cell ∈ cells, cell.Sound := by
  induction lexemes generalizing marks with
  | nil =>
    obtain rfl := filledOf_eq_nil text_eq
    exact ⟨[], rfl, rfl, by simp⟩
  | cons lexeme rest ih =>
    obtain ⟨block, others, rfl, block_eq, others_eq, later, hosted⟩ := housed.cons text_eq
    obtain ⟨cell, rfl, rfl, sound⟩ := cell_of_block block_eq hosted
    obtain ⟨cells, rfl, rfl, allSound⟩ := ih later others_eq
    exact ⟨cell :: cells, rfl, rfl, by simpa using ⟨sound, allSound⟩⟩

end Stencil
