import Mathlib.Data.List.Chain
import Stencil.Proofs.Document.Grammar

/-! Lexemes do not grow together. Of two lexemes that stand next to each other
in a document, one is a blank or a mark, so what begins where a number or a key
begins and ends where it ends is not part of anything longer. -/
namespace Stencil.Document

/-- The characters that stand for themselves between values and keys. -/
def structural : List Char := ['[', ']', '\x7b', '\x7d', ':', ',']

/-- A lexeme that keeps its neighbours apart. -/
inductive Lexeme.IsGap : Lexeme → Prop where
  | blank {character : Char} (known : Text.isBlank character = true) : IsGap (.blank character)
  | mark {character : Char} (known : character ∈ structural) : IsGap (.mark character)

/-- One of two neighbours keeps the other from growing. -/
def Apart (front back : Lexeme) : Prop := front.IsGap ∨ back.IsGap

/-- A gap is one character that is no part of a number and opens no string. -/
theorem Lexeme.IsGap.text {lexeme : Lexeme} (gap : lexeme.IsGap) :
    ∃ character, lexeme.text = [character] ∧ character.isDigit = false ∧ character ≠ '"' := by
  cases gap with
  | @blank character known =>
    have one : ((character = ' ' ∨ character = '\t') ∨ character = '\n') ∨ character = '\r' := by
      simpa [Text.isBlank] using known
    rcases one with ((rfl | rfl) | rfl) | rfl <;> exact ⟨_, rfl, rfl, by decide⟩
  | mark known =>
    simp only [structural, List.mem_cons, List.not_mem_nil, or_false] at known
    rcases known with rfl | rfl | rfl | rfl | rfl | rfl <;> exact ⟨_, rfl, rfl, by decide⟩

theorem Blanks.isGap {blanks : List Lexeme} (only : Blanks blanks) : ∀ lexeme ∈ blanks, lexeme.IsGap := by
  intro lexeme member
  obtain ⟨character, rfl, blank⟩ := only lexeme member
  exact .blank blank

theorem isChain_gaps_append {gaps back : List Lexeme} (only : ∀ lexeme ∈ gaps, lexeme.IsGap)
    (chain : back.IsChain Apart) : (gaps ++ back).IsChain Apart := by
  induction gaps with
  | nil => exact chain
  | cons gap rest ih =>
    rw [List.cons_append, List.isChain_cons]
    exact ⟨fun _ _ => .inl (only gap (by simp)), ih fun lexeme member => only lexeme (by simp [member])⟩

theorem isChain_append_gaps {front gaps : List Lexeme} (only : ∀ lexeme ∈ gaps, lexeme.IsGap)
    (chain : front.IsChain Apart) : (front ++ gaps).IsChain Apart := by
  refine List.isChain_append.mpr ⟨chain, ?_, ?_⟩
  · simpa using isChain_gaps_append only (List.IsChain.nil (R := Apart))
  · intro _ _ next member
    exact .inr (only next (List.mem_of_head? member))

theorem isChain_append_mark {front back : List Lexeme} {character : Char} (known : character ∈ structural)
    (first : front.IsChain Apart) (second : back.IsChain Apart) :
    (front ++ .mark character :: back).IsChain Apart := by
  refine List.isChain_append.mpr ⟨first, ?_, ?_⟩
  · exact List.isChain_cons.mpr ⟨fun _ _ => .inl (.mark known), second⟩
  · intro _ _ next member
    obtain rfl := Option.some.inj member
    exact .inr (.mark known)

theorem isChain_enclosed {inside : List Lexeme} {first last : Char} (opens : first ∈ structural)
    (closes : last ∈ structural) (chain : inside.IsChain Apart) :
    (Lexeme.mark first :: inside ++ [Lexeme.mark last]).IsChain Apart := by
  have opened : ([] ++ Lexeme.mark first :: inside).IsChain Apart := isChain_append_mark opens .nil chain
  exact isChain_append_mark closes opened .nil

/-- Of two neighbours in a phrase, one is a gap. -/
theorem Phrase.apart {part : Part} {lexemes : List Lexeme} (phrase : Phrase part lexemes) :
    lexemes.IsChain Apart := by
  induction phrase with
  | string | integer | decimal | word => exact .singleton _
  | array _ ih | object _ ih =>
    refine isChain_enclosed ?_ ?_ ih
    · decide
    · decide
  | spaced front _ back ih => exact isChain_append_gaps back.isGap (isChain_gaps_append front.isGap ih)
  | noItems only | noMembers only => simpa using isChain_gaps_append only.isGap .nil
  | lastItem _ ih | lastMember _ ih => exact ih
  | nextItem _ _ first others | nextMember _ _ first others => exact isChain_append_mark (by decide) first others
  | @member key node before between value name front _ middle _ ih =>
    have afterName : (name :: (between ++ .mark ':' :: value)).IsChain Apart := by
      have named := isChain_append_gaps middle.isGap (List.IsChain.singleton (R := Apart) name)
      simpa using isChain_append_mark (by decide) named ih
    rw [List.append_assoc]
    exact isChain_gaps_append front.isGap afterName

/-- A lexeme of a document that is no gap has gaps or nothing at its sides. -/
theorem Phrase.beside {part : Part} {before after : List Lexeme} {token : Lexeme}
    (phrase : Phrase part (before ++ token :: after)) (solid : ¬ token.IsGap) :
    (∀ last ∈ before.getLast?, last.IsGap) ∧ (∀ next ∈ after.head?, next.IsGap) := by
  obtain ⟨_, second, between⟩ := List.isChain_append.mp phrase.apart
  obtain ⟨following, _⟩ := List.isChain_cons.mp second
  exact ⟨fun last member => (between last member token rfl).resolve_right solid,
    fun next member => (following next member).resolve_left solid⟩

/-- A document does not begin with a key. -/
theorem Denotes.before_bareKey {before after : List Lexeme} {key : Text} {root : Node}
    (denotes : Denotes (before ++ .bareKey key :: after) root) : before ≠ [] := by
  rintro rfl
  generalize lexemes_eq : [] ++ Lexeme.bareKey key :: after = lexemes at denotes
  cases denotes with
  | @spaced _ blanks value rest front inner _ =>
    cases blanks with
    | cons first blanks =>
      obtain ⟨_, isBlank, _⟩ := front first (by simp)
      rw [isBlank] at lexemes_eq
      simp at lexemes_eq
    | nil => cases inner <;> simp at lexemes_eq

/-- A lexeme stands at a byte offset of the text of a document. -/
def StandsAt (token : Lexeme) (lexemes : List Lexeme) (offset : Nat) : Prop :=
  ∃ before after, lexemes = before ++ token :: after ∧ Text.size (textOf before) = offset

/-- A lexeme ends before the next one begins. -/
theorem StandsAt.disjoint {first second : Lexeme} {lexemes : List Lexeme} {offset later : Nat}
    (stands : StandsAt first lexemes offset) (stands' : StandsAt second lexemes later)
    (before : offset < later) : offset + Text.size first.text ≤ later := by
  obtain ⟨front, back, split, rfl⟩ := stands
  obtain ⟨front', back', split', rfl⟩ := stands'
  rcases List.append_eq_append_iff.mp (split.symm.trans split') with
    ⟨between, rfl, tail⟩ | ⟨between, rfl, tail⟩
  · cases between with
    | nil => simp at before
    | cons lexeme between =>
      obtain ⟨rfl, _⟩ := List.cons.inj tail
      simp only [textOf_append, textOf_cons, Text.size_append]
      omega
  · simp only [textOf_append, Text.size_append] at before
    omega

end Stencil.Document
