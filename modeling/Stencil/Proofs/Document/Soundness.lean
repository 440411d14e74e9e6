import Stencil.Proofs.Document.Beginnings

/-! Whatever the reader accepts is a document of the grammar, and the tree it
makes is the one that the grammar says. At every moment of a run, the text that
was taken so far consists of whole lexemes that belong to the containers the
reader is inside of, and of the beginning of the lexeme it is in the middle of. -/
namespace Stencil.Document

/-- Items that were read so far, the latest first, each with the comma after it. -/
inductive ItemsRead : List Node → List Lexeme → Prop where
  | none : ItemsRead [] []
  | next {item : Node} {items : List Node} {inside lexemes : List Lexeme} (earlier : ItemsRead items inside)
      (last : Phrase (.spaced item) lexemes) :
      ItemsRead (item :: items) (inside ++ (lexemes ++ [.mark ',']))

/-- Members that were read so far, the latest first, each with the comma after it. -/
inductive MembersRead : List (Text × Node) → List Lexeme → Prop where
  | none : MembersRead [] []
  | next {key : Text} {node : Node} {members : List (Text × Node)} {inside lexemes : List Lexeme}
      (earlier : MembersRead members inside) (last : Phrase (.member key node) lexemes) :
      MembersRead ((key, node) :: members) (inside ++ (lexemes ++ [.mark ',']))

theorem ItemsRead.join {done rest : List Node} {next : Node} {inside more : List Lexeme}
    (earlier : ItemsRead done inside) (later : Phrase (.items (next :: rest)) more) :
    Phrase (.items (done.reverse ++ next :: rest)) (inside ++ more) := by
  induction earlier generalizing next rest more with
  | none => exact later
  | next _ last ih => simpa using ih (.nextItem last later)

theorem MembersRead.join {done rest : List (Text × Node)} {next : Text × Node} {inside more : List Lexeme}
    (earlier : MembersRead done inside) (later : Phrase (.members (next :: rest)) more) :
    Phrase (.members (done.reverse ++ next :: rest)) (inside ++ more) := by
  induction earlier generalizing next rest more with
  | none => exact later
  | next _ last ih => simpa using ih (.nextMember last later)

/-- The lexemes in front of a value in the given containers, up to the blanks before it. -/
inductive Opened : List Frame → List Lexeme → Prop where
  | root : Opened [] []
  | array {stack : List Frame} {items : List Node} {before blanks inside : List Lexeme}
      (outer : Opened stack before) (front : Blanks blanks) (earlier : ItemsRead items inside) :
      Opened (.array items :: stack) (before ++ blanks ++ .mark '[' :: inside)
  | object {stack : List Frame} {members : List (Text × Node)} {key : Text} {name : Lexeme}
      {before blanks inside pre between : List Lexeme} (outer : Opened stack before) (front : Blanks blanks)
      (earlier : MembersRead members inside) (keyFront : Blanks pre) (isKey : IsKey key name)
      (middle : Blanks between) :
      Opened (.object members key :: stack)
        (before ++ blanks ++ .mark '\x7b' :: inside ++ pre ++ name :: between ++ [.mark ':'])

/-- The lexemes in front of a further member of an object in the given containers. -/
inductive Braced (stack : List Frame) (members : List (Text × Node)) : List Lexeme → Prop where
  | brace {before blanks inside : List Lexeme} (outer : Opened stack before) (front : Blanks blanks)
      (earlier : MembersRead members inside) : Braced stack members (before ++ blanks ++ .mark '\x7b' :: inside)

/-- The lexemes up to the end of a value in the given containers. -/
inductive Closed (stack : List Frame) (node : Node) : List Lexeme → Prop where
  | value {before blanks value : List Lexeme} (outer : Opened stack before) (front : Blanks blanks)
      (inner : Phrase (.value node) value) : Closed stack node (before ++ blanks ++ value)

/-- The states that the reader can be in, after whole lexemes and the beginning of the next one. -/
inductive Reached : State → List Lexeme → Text → Prop where
  | value {stack : List Frame} {before blanks : List Lexeme} (outer : Opened stack before)
      (front : Blanks blanks) : Reached ⟨stack, .value⟩ (before ++ blanks) []
  | firstItem {stack : List Frame} {before blanks inside : List Lexeme} (outer : Opened stack before)
      (front : Blanks blanks) (inner : Blanks inside) :
      Reached ⟨stack, .firstItem⟩ (before ++ blanks ++ .mark '[' :: inside) []
  | firstKey {stack : List Frame} {before blanks inside : List Lexeme} (outer : Opened stack before)
      (front : Blanks blanks) (inner : Blanks inside) :
      Reached ⟨stack, .firstKey⟩ (before ++ blanks ++ .mark '\x7b' :: inside) []
  | key {stack : List Frame} {members : List (Text × Node)} {before blanks : List Lexeme}
      (braced : Braced stack members before) (front : Blanks blanks) :
      Reached ⟨stack, .key members⟩ (before ++ blanks) []
  | bareKey {stack : List Frame} {members : List (Text × Node)} {before blanks : List Lexeme} {read : Text}
      (braced : Braced stack members before) (front : Blanks blanks) (nonempty : read ≠ [])
      (characters : ∀ character ∈ read, isKeyCharacter character = true) :
      Reached ⟨stack, .bareKey members read⟩ (before ++ blanks) read.reverse
  | quotedKey {stack : List Frame} {members : List (Text × Node)} {before blanks : List Lexeme} {read : Text}
      {quoted : Quoted} (braced : Braced stack members before) (front : Blanks blanks)
      (inside : readQuoted .plain read.reverse = some quoted) :
      Reached ⟨stack, .quotedKey members read quoted⟩ (before ++ blanks) ('"' :: read.reverse)
  | colon {stack : List Frame} {members : List (Text × Node)} {before blanks between : List Lexeme} {key : Text}
      {name : Lexeme} (braced : Braced stack members before) (front : Blanks blanks) (isKey : IsKey key name)
      (middle : Blanks between) :
      Reached ⟨stack, .colon members key⟩ (before ++ blanks ++ name :: between) []
  | string {stack : List Frame} {before blanks : List Lexeme} {read : Text} {quoted : Quoted}
      (outer : Opened stack before) (front : Blanks blanks) (inside : readQuoted .plain read = some quoted) :
      Reached ⟨stack, .string quoted⟩ (before ++ blanks) ('"' :: read)
  | number {stack : List Frame} {before blanks : List Lexeme} {part : NumberPart} {read : Text}
      (outer : Opened stack before) (front : Blanks blanks) (begun : NumberRead part read.reverse) :
      Reached ⟨stack, .number part read⟩ (before ++ blanks) read.reverse
  | word {stack : List Frame} {before blanks : List Lexeme} {read later : Text} {next : Char}
      (outer : Opened stack before) (front : Blanks blanks) (known : read ++ next :: later ∈ words) :
      Reached ⟨stack, .word read next later⟩ (before ++ blanks) read
  | complete {stack : List Frame} {node : Node} {before blanks : List Lexeme}
      (closed : Closed stack node before) (back : Blanks blanks) :
      Reached ⟨stack, .complete node⟩ (before ++ blanks) []

/-- A state can be that of the reader after a text. -/
def Taken (state : State) (text : Text) : Prop :=
  ∃ lexemes begun, Reached state lexemes begun ∧ text = textOf lexemes ++ begun

theorem Reached.taken {state : State} {lexemes : List Lexeme} {begun : Text} (reached : Reached state lexemes begun) :
    Taken state (textOf lexemes ++ begun) := ⟨lexemes, begun, reached, rfl⟩

/-- One more blank makes longer blanks. -/
theorem Blanks.append_blank {blanks : List Lexeme} {character : Char} (only : Blanks blanks)
    (blank : Text.isBlank character = true) : Blanks (blanks ++ [.blank character]) :=
  only.append (.singleton blank)

theorem Opened.beginValue {stack : List Frame} {before blanks : List Lexeme} {character : Char} {next : State}
    (outer : Opened stack before) (front : Blanks blanks)
    (taken : beginValue stack character = .ok next) :
    Taken next (textOf (before ++ blanks) ++ [character]) := by
  have word {read later : Text} {letter : Char} (known : read ++ letter :: later ∈ words) :
      Taken ⟨stack, .word read letter later⟩ (textOf (before ++ blanks) ++ read) :=
    (Reached.word outer front known).taken
  have number {part : NumberPart} (begun : NumberRead part [character]) :
      Taken ⟨stack, .number part [character]⟩ (textOf (before ++ blanks) ++ [character]) :=
    (Reached.number outer front begun).taken
  unfold Document.beginValue at taken
  split at taken
  · rename_i isBrace
    split at taken
    · cases taken
      subst isBrace
      simpa [Lexeme.text] using (Reached.firstKey outer front .nil).taken
    · cases taken
  split at taken
  · rename_i isBracket
    split at taken
    · cases taken
      subst isBracket
      simpa [Lexeme.text] using (Reached.firstItem outer front .nil).taken
    · cases taken
  split at taken
  · rename_i isQuote
    cases taken
    subst isQuote
    have opened : Reached ⟨stack, .string .plain⟩ (before ++ blanks) ['"'] := .string outer front rfl
    exact opened.taken
  split at taken
  · rename_i isMinus
    cases taken
    subst isMinus
    exact number .minus
  split at taken
  · rename_i isZero
    cases taken
    subst isZero
    exact number .zero
  split at taken
  · cases taken
    exact number (.integer ‹_› ‹_› (by simp))
  split at taken
  · rename_i isLetter
    cases taken
    subst isLetter
    exact word (by simp [words])
  split at taken
  · rename_i isLetter
    cases taken
    subst isLetter
    exact word (by simp [words])
  split at taken
  · rename_i isLetter
    cases taken
    subst isLetter
    exact word (by simp [words])
  · cases taken

/-- The reader begins a key, or skips a blank in front of it. -/
theorem Braced.beginKey {stack : List Frame} {members : List (Text × Node)} {before blanks : List Lexeme}
    {character : Char} {next : State} (braced : Braced stack members before) (front : Blanks blanks)
    (taken : beginKey stack members character = .ok next) :
    Taken next (textOf (before ++ blanks) ++ [character]) := by
  unfold Document.beginKey at taken
  split at taken
  · rename_i blank
    cases taken
    simpa [Lexeme.text] using (Reached.key braced (front.append_blank blank)).taken
  split at taken
  · rename_i isQuote
    cases taken
    subst isQuote
    have opened : Reached ⟨stack, .quotedKey members [] .plain⟩ (before ++ blanks) ['"'] :=
      .quotedKey braced front rfl
    exact opened.taken
  split at taken
  · cases taken
    have opened : Reached ⟨stack, .bareKey members [character]⟩ (before ++ blanks) [character] :=
      .bareKey braced front (by simp) (by simpa)
    exact opened.taken
  · cases taken

/-- After a key the reader skips blanks and takes the colon. -/
theorem Braced.afterKey {stack : List Frame} {members : List (Text × Node)}
    {before blanks between : List Lexeme} {key : Text} {name : Lexeme} {character : Char} {next : State}
    (braced : Braced stack members before) (front : Blanks blanks) (isKey : IsKey key name)
    (middle : Blanks between) (taken : afterKey stack members key character = .ok next) :
    Taken next (textOf (before ++ blanks ++ name :: between) ++ [character]) := by
  unfold Document.afterKey at taken
  split at taken
  · rename_i blank
    cases taken
    simpa [Lexeme.text] using (Reached.colon braced front isKey (middle.append_blank blank)).taken
  split at taken
  · rename_i isColon
    cases taken
    subst isColon
    obtain ⟨outer, pre, earlier⟩ := braced
    simpa [Lexeme.text] using (Reached.value (.object outer pre earlier front isKey middle) .nil).taken
  · cases taken

/-- After a value the reader skips blanks, goes on to the next member or item,
or closes the container around it. -/
theorem Closed.afterValue {stack : List Frame} {node : Node} {before blanks : List Lexeme}
    {character : Char} {next : State} (closed : Closed stack node before) (back : Blanks blanks)
    (taken : afterValue stack node character = .ok next) :
    Taken next (textOf (before ++ blanks) ++ [character]) := by
  unfold Document.afterValue at taken
  split at taken
  · rename_i blank
    cases taken
    simpa [Lexeme.text] using (Reached.complete closed (back.append_blank blank)).taken
  obtain ⟨outer, front, inner⟩ := closed
  have value := Phrase.spaced front inner back
  cases outer with
  | root => cases taken
  | array outer pre earlier =>
    simp only at taken
    split at taken
    · rename_i isComma
      cases taken
      subst isComma
      simpa [Lexeme.text] using (Reached.value (.array outer pre (.next earlier value)) .nil).taken
    split at taken
    · rename_i isBracket
      cases taken
      subst isBracket
      have array := Phrase.array (earlier.join (.lastItem value))
      rw [← List.reverse_cons] at array
      simpa [Lexeme.text] using (Reached.complete (.value outer pre array) .nil).taken
    · cases taken
  | object outer pre earlier keyFront isKey middle =>
    have member := Phrase.member keyFront isKey middle value
    simp only at taken
    split at taken
    · rename_i isComma
      cases taken
      subst isComma
      simpa [Lexeme.text] using (Reached.key (.brace outer pre (.next earlier member)) .nil).taken
    split at taken
    · rename_i isBrace
      cases taken
      subst isBrace
      have object := Phrase.object (earlier.join (.lastMember member))
      rw [← List.reverse_cons] at object
      simpa [Lexeme.text] using (Reached.complete (.value outer pre object) .nil).taken
    · cases taken

private theorem ok_of_bind {α β : Type} {error : Type} {first : Except error α} {later : α → Except error β}
    {result : β} (taken : (first >>= later) = .ok result) :
    ∃ value, first = .ok value ∧ later value = .ok result := by
  cases first with
  | error _ => cases taken
  | ok value => exact ⟨value, rfl, taken⟩

private theorem Opened.number {stack : List Frame} {before blanks : List Lexeme} {part : NumberPart}
    {read : Text} {character : Char} {next : State} (outer : Opened stack before) (front : Blanks blanks)
    (begun : NumberRead part read.reverse) (ends : part.isComplete = true)
    (taken : afterValue stack (part.node read) character = .ok next) :
    Taken next (textOf (before ++ blanks) ++ read.reverse ++ [character]) := by
  obtain ⟨lexeme, phrase, text_eq⟩ := begun.lexeme ends
  simpa [text_eq] using Closed.afterValue (.value outer front phrase) .nil taken

/-- What one step takes is one more character of a document. -/
theorem Taken.step {state next : State} {text : Text} {character : Char} (before : Taken state text)
    (taken : step state character = .ok next) : Taken next (text ++ [character]) := by
  obtain ⟨lexemes, begun, reached, rfl⟩ := before
  cases reached with
  | value outer front =>
    simp only [Document.step] at taken
    rw [List.append_nil]
    split at taken
    · rename_i blank
      cases taken
      simpa [Lexeme.text] using (Reached.value outer (front.append_blank blank)).taken
    · exact outer.beginValue front taken
  | firstItem outer front inner =>
    simp only [Document.step] at taken
    split at taken
    · rename_i blank
      cases taken
      simpa [Lexeme.text] using (Reached.firstItem outer front (inner.append_blank blank)).taken
    split at taken
    · rename_i isBracket
      cases taken
      subst isBracket
      have array := Phrase.array (.noItems inner)
      simpa [Lexeme.text] using (Reached.complete (.value outer front array) .nil).taken
    · have opened : Opened (.array [] :: _) _ := .array outer front .none
      simpa using opened.beginValue inner taken
  | firstKey outer front inner =>
    simp only [Document.step] at taken
    split at taken
    · rename_i blank
      cases taken
      simpa [Lexeme.text] using (Reached.firstKey outer front (inner.append_blank blank)).taken
    split at taken
    · rename_i isBrace
      cases taken
      subst isBrace
      have object := Phrase.object (.noMembers inner)
      simpa [Lexeme.text] using (Reached.complete (.value outer front object) .nil).taken
    · have braced : Braced _ [] _ := .brace outer front .none
      simpa using braced.beginKey inner taken
  | key braced front =>
    rw [List.append_nil]
    exact braced.beginKey front taken
  | @bareKey stack members before blanks read braced front nonempty characters =>
    simp only [Document.step] at taken
    split at taken
    · rename_i isKeyCharacter
      cases taken
      have longer : Reached ⟨stack, .bareKey members (character :: read)⟩ _ _ :=
        .bareKey braced front (by simp) (by simpa using ⟨isKeyCharacter, characters⟩)
      simpa using longer.taken
    · have isKey : IsKey read.reverse (.bareKey read.reverse) := .bare (by simpa) (by simpa)
      simpa [Lexeme.text] using braced.afterKey front isKey .nil taken
  | @quotedKey stack members before blanks read quoted braced front inside =>
    obtain ⟨outcome, stepped, taken⟩ := ok_of_bind taken
    rcases stepQuoted_cases inside stepped with ⟨rfl, rfl, rfl⟩ | ⟨next, rfl, longer⟩
    · cases taken
      have isKey := IsKey.quoted (completes_of_readQuoted inside)
      simpa [Lexeme.text] using (Reached.colon braced front isKey .nil).taken
    · cases taken
      have more : Reached ⟨stack, .quotedKey members (character :: read) next⟩ _ _ :=
        .quotedKey braced front (by simpa using longer)
      simpa using more.taken
  | colon braced front isKey middle =>
    rw [List.append_nil]
    exact braced.afterKey front isKey middle taken
  | string outer front inside =>
    obtain ⟨outcome, stepped, taken⟩ := ok_of_bind taken
    rcases stepQuoted_cases inside stepped with ⟨rfl, rfl, rfl⟩ | ⟨next, rfl, longer⟩
    · cases taken
      have literal := Phrase.string (completes_of_readQuoted inside)
      simpa [Lexeme.text] using (Reached.complete (.value outer front literal) .nil).taken
    · cases taken
      simpa using (Reached.string outer front longer).taken
  | @number stack before blanks part read outer front begun =>
    obtain ⟨outcome, stepped, taken⟩ := ok_of_bind taken
    cases outcome with
    | none => exact outer.number front begun (isComplete_of_stepNumber stepped) taken
    | some next =>
      cases taken
      have longer : Reached ⟨stack, .number next (character :: read)⟩ _ _ :=
        .number outer front (by simpa using begun.step stepped)
      simpa using longer.taken
  | @word stack before blanks _ later expected outer front known =>
    simp only [Document.step] at taken
    split at taken
    · rename_i isNext
      subst isNext
      cases later with
      | nil =>
        cases taken
        have word := Phrase.word known
        simpa [Lexeme.text] using (Reached.complete (.value outer front word) .nil).taken
      | cons letter later =>
        cases taken
        have longer : Reached ⟨stack, .word (begun ++ [character]) letter later⟩ _ _ :=
          .word outer front (by simpa using known)
        simpa using longer.taken
    · cases taken
  | complete closed back =>
    rw [List.append_nil]
    exact closed.afterValue back taken

/-- Everything that a run takes is part of a document. -/
theorem Taken.run {start last : State} {position : Nat} {text rest : Text} (before : Taken start text)
    (taken : run start position rest = .ok last) : Taken last (text ++ rest) := by
  induction rest generalizing start position text with
  | nil =>
    simp only [Document.run, Except.ok.injEq] at taken
    rw [List.append_nil, ← taken]
    exact before
  | cons character rest ih =>
    rw [Document.run] at taken
    cases stepped : Document.step start character with
    | error stop => simp [stepped] at taken
    | ok next =>
      simp only [stepped] at taken
      simpa using ih (before.step stepped) taken

private theorem Closed.denotes {stack : List Frame} {node root : Node} {before blanks : List Lexeme}
    (closed : Closed stack node before) (back : Blanks blanks) (ends : finishValue stack node = .ok root) :
    Denotes (before ++ blanks) root := by
  obtain ⟨outer, front, inner⟩ := closed
  cases outer with
  | root =>
    cases ends
    exact .spaced front inner back
  | array | object => cases ends

/-- **What the reader accepts is a document**: its text divides into lexemes
from which the grammar makes the same tree. -/
theorem denotes_of_parse {text : Text} {root : Node} (parsed : parse text = .ok root) :
    ∃ lexemes, Denotes lexemes root ∧ textOf lexemes = text := by
  obtain ⟨last, ran, parsed⟩ := ok_of_bind parsed
  have begin : Taken State.initial [] := (Reached.value .root .nil).taken
  obtain ⟨lexemes, begun, reached, text_eq⟩ := begin.run ran
  rw [List.nil_append] at text_eq
  cases ended : finish last with
  | error stop => simp [ended] at parsed
  | ok found =>
    simp only [ended, Except.ok.injEq] at parsed
    subst parsed
    cases reached with
    | complete closed back => exact ⟨_, closed.denotes back ended, by simp [text_eq]⟩
    | @number stack before blanks part read outer front begun =>
      simp only [finish] at ended
      split at ended
      · obtain ⟨lexeme, phrase, lexeme_eq⟩ := begun.lexeme ‹_›
        have closed : Closed stack (part.node read) _ := .value outer front phrase
        exact ⟨_, closed.denotes .nil ended, by simp [text_eq, lexeme_eq]⟩
      · cases ended
    | value | firstItem | firstKey | key | bareKey | quotedKey | colon | string | word => cases ended

end Stencil.Document
