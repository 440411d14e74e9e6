import Stencil.Proofs.Document.Reading

/-! The reader accepts every document of the grammar that is not nested too
deep, and makes the tree of it that the grammar says. A phrase is followed
through the reader from the state in which its kind of phrase is expected; the
containers around it come along unchanged. -/
namespace Stencil.Document

/-- The states in which a value in the given containers is expected. The first
item of an array is expected before the array is among the containers. -/
inductive AwaitsValue : List Frame → State → Prop where
  | value (stack : List Frame) : AwaitsValue stack ⟨stack, .value⟩
  | firstItem (stack : List Frame) : AwaitsValue (.array [] :: stack) ⟨stack, .firstItem⟩

/-- The states in which the key of a further member is expected. -/
inductive AwaitsKey : List Frame → List (Text × Node) → State → Prop where
  | key (stack : List Frame) (members : List (Text × Node)) : AwaitsKey stack members ⟨stack, .key members⟩
  | firstKey (stack : List Frame) : AwaitsKey stack [] ⟨stack, .firstKey⟩

theorem AwaitsValue.blank {stack : List Frame} {state : State} (awaits : AwaitsValue stack state)
    (character : Char) (blank : Text.isBlank character = true) : step state character = .ok state := by
  cases awaits <;> simp [step, blank]

/-- Only the bracket that closes an array makes a difference for its first item. -/
theorem AwaitsValue.step {stack : List Frame} {state : State} {character : Char}
    (awaits : AwaitsValue stack state) (noBlank : Text.isBlank character = false)
    (noClose : character ≠ ']') : step state character = beginValue stack character := by
  cases awaits <;> simp [Document.step, noBlank, noClose]

theorem AwaitsKey.blank {stack : List Frame} {members : List (Text × Node)} {state : State}
    (awaits : AwaitsKey stack members state) (character : Char) (blank : Text.isBlank character = true) :
    step state character = .ok state := by
  cases awaits <;> simp [step, beginKey, blank]

theorem AwaitsKey.step {stack : List Frame} {members : List (Text × Node)} {state : State} {character : Char}
    (awaits : AwaitsKey stack members state) (noBlank : Text.isBlank character = false)
    (noClose : character ≠ '\x7d') : step state character = beginKey stack members character := by
  cases awaits <;> simp [Document.step, noBlank, noClose]

/-- A text whose first character means the same in two states is read the same from both. -/
theorem Reads.congr_first {start other stop : State} {character : Char} {rest : Text}
    (same : step start character = step other character) (reads : Reads other (character :: rest) stop) :
    Reads start (character :: rest) stop := by
  intro position
  have read := reads position
  rw [run] at read ⊢
  rw [same]
  exact read

theorem IsInteger.head {text : Text} (number : IsInteger text) :
    ∃ first rest, text = first :: rest ∧ (first = '-' ∨ first.isDigit = true) := by
  cases number with
  | unsigned whole =>
    obtain ⟨first, rest, rfl, digit, _⟩ := whole.readNumber
    exact ⟨first, rest, rfl, .inr digit⟩
  | signed whole => exact ⟨'-', _, rfl, .inl rfl⟩

theorem IsDecimal.head {text : Text} (number : IsDecimal text) :
    ∃ first rest, text = first :: rest ∧ (first = '-' ∨ first.isDigit = true) := by
  cases number with
  | fraction front | exponent front =>
    obtain ⟨first, rest, rfl, begins⟩ := front.head
    exact ⟨first, _, rfl, begins⟩
  | both front =>
    obtain ⟨first, rest, rfl, begins⟩ := front.head
    exact ⟨first, _, rfl, begins⟩

private theorem begins_number {first : Char} (begins : first = '-' ∨ first.isDigit = true) :
    Text.isBlank first = false ∧ first ≠ ']' := by
  rcases begins with rfl | digit
  · exact ⟨rfl, by decide⟩
  · refine ⟨isBlank_digit digit, ?_⟩
    rintro rfl
    exact Bool.noConfusion digit

/-- The first character of a value is neither a blank nor a closing bracket. -/
theorem Phrase.value_head {node : Node} {lexemes : List Lexeme} (phrase : Phrase (.value node) lexemes) :
    ∃ first rest, textOf lexemes = first :: rest ∧ Text.isBlank first = false ∧ first ≠ ']' := by
  cases phrase with
  | string proper => exact ⟨'"', _, rfl, rfl, by decide⟩
  | integer number =>
    obtain ⟨first, rest, rfl, begins⟩ := number.head
    exact ⟨first, rest, by simp [Lexeme.text], begins_number begins⟩
  | decimal number =>
    obtain ⟨first, rest, rfl, begins⟩ := number.head
    exact ⟨first, rest, by simp [Lexeme.text], begins_number begins⟩
  | word known =>
    simp only [words, List.mem_cons, List.not_mem_nil, or_false] at known
    rcases known with rfl | rfl | rfl <;> exact ⟨_, _, rfl, rfl, by decide⟩
  | array => exact ⟨'[', _, rfl, rfl, by decide⟩
  | object => exact ⟨'\x7b', _, rfl, rfl, by decide⟩

/-- What the reader does with the text of a part in the given containers. -/
def Part.Accepted : Part → List Lexeme → Prop
  | .value node, lexemes => ∀ stack, stack.length + node.depth ≤ depthLimit →
    ∃ stop, Reads ⟨stack, .value⟩ (textOf lexemes) stop ∧ Holds stack node stop
  | .spaced node, lexemes => ∀ stack start, AwaitsValue stack start → stack.length + node.depth ≤ depthLimit →
    ∃ stop, Reads start (textOf lexemes) stop ∧ Holds stack node stop
  | .items inner, lexemes => ∀ stack done start, AwaitsValue (.array done :: stack) start →
    (inner = [] → start = ⟨stack, .firstItem⟩) → stack.length + 1 + depthOfItems inner ≤ depthLimit →
    Reads start (textOf lexemes ++ [']']) ⟨stack, .complete (.array (done.reverse ++ inner))⟩
  | .member key node, lexemes => ∀ stack done start, AwaitsKey stack done start →
    stack.length + 1 + node.depth ≤ depthLimit →
    ∃ stop, Reads start (textOf lexemes) stop ∧ Holds (.object done key :: stack) node stop
  | .members inner, lexemes => ∀ stack done start, AwaitsKey stack done start →
    (inner = [] → start = ⟨stack, .firstKey⟩) → stack.length + 1 + depthOfMembers inner ≤ depthLimit →
    Reads start (textOf lexemes ++ ['\x7d']) ⟨stack, .complete (.object (done.reverse ++ inner))⟩

private theorem accepted_string {contents : Text} (proper : Contents contents) :
    Part.Accepted (.value .other) [.string contents] := by
  intro stack _
  refine ⟨⟨stack, .complete .other⟩, ?_, .complete⟩
  have inside : Reads ⟨stack, .string .plain⟩ contents ⟨stack, .string .plain⟩ :=
    reads_string stack proper.readQuoted
  have opens : step ⟨stack, .value⟩ '"' = .ok ⟨stack, .string .plain⟩ := rfl
  have closes : step ⟨stack, .string .plain⟩ '"' = .ok ⟨stack, .complete .other⟩ := rfl
  simpa [Lexeme.text] using Reads.cons opens (inside.append (Reads.one closes))

private theorem accepted_word {text : Text} (known : text ∈ words) :
    Part.Accepted (.value .other) [.word text] := by
  intro stack _
  refine ⟨⟨stack, .complete .other⟩, ?_, .complete⟩
  simp only [words, List.mem_cons, List.not_mem_nil, or_false] at known
  rcases known with rfl | rfl | rfl <;> exact fun _ => rfl

private theorem accepted_array {items : List Node} {inside : List Lexeme}
    (within : Part.Accepted (.items items) inside) :
    Part.Accepted (.value (.array items)) (.mark '[' :: inside ++ [.mark ']']) := by
  intro stack shallow
  rw [Node.depth] at shallow
  have opens : step ⟨stack, .value⟩ '[' = .ok ⟨stack, .firstItem⟩ := by
    have room : stack.length < depthLimit := by omega
    simp [step, beginValue, room, Text.isBlank]
  have reads := within stack [] ⟨stack, .firstItem⟩ (.firstItem stack) (fun _ => rfl) (by omega)
  exact ⟨_, by simpa [Lexeme.text] using Reads.cons opens reads, .complete⟩

private theorem accepted_object {members : List (Text × Node)} {inside : List Lexeme}
    (within : Part.Accepted (.members members) inside) :
    Part.Accepted (.value (.object members)) (.mark '\x7b' :: inside ++ [.mark '\x7d']) := by
  intro stack shallow
  rw [Node.depth] at shallow
  have opens : step ⟨stack, .value⟩ '\x7b' = .ok ⟨stack, .firstKey⟩ := by
    have room : stack.length < depthLimit := by omega
    simp [step, beginValue, room, Text.isBlank]
  have reads := within stack [] ⟨stack, .firstKey⟩ (.firstKey stack) (fun _ => rfl) (by omega)
  exact ⟨_, by simpa [Lexeme.text] using Reads.cons opens reads, .complete⟩

private theorem accepted_spaced {node : Node} {before value after : List Lexeme} (front : Blanks before)
    (phrase : Phrase (.value node) value) (inner : Part.Accepted (.value node) value) (back : Blanks after) :
    Part.Accepted (.spaced node) (before ++ value ++ after) := by
  intro stack start awaits shallow
  obtain ⟨middle, reads, holds⟩ := inner stack shallow
  obtain ⟨stop, readsAfter, held⟩ := holds.reads_blanks back
  obtain ⟨first, rest, text_eq, noBlank, noClose⟩ := phrase.value_head
  refine ⟨stop, ?_, held⟩
  rw [textOf_append, textOf_append]
  refine ((reads_blanks front awaits.blank).append ?_).append readsAfter
  rw [text_eq] at reads ⊢
  exact reads.congr_first ((awaits.step noBlank noClose).trans
    (AwaitsValue.value stack |>.step noBlank noClose).symm)

private theorem accepted_lastItem {item : Node} {inside : List Lexeme}
    (last : Part.Accepted (.spaced item) inside) : Part.Accepted (.items [item]) inside := by
  intro stack done start awaits _ shallow
  obtain ⟨stop, reads, holds⟩ := last (.array done :: stack) start awaits (by
    simp only [depthOfItems] at shallow
    simp only [List.length_cons]
    omega)
  refine reads.append (Reads.one ?_)
  rw [holds.step rfl ⟨by decide, by decide, by decide⟩]
  simp [afterValue, Text.isBlank]

private theorem accepted_nextItem {item next : Node} {items : List Node} {inside more : List Lexeme}
    (first : Part.Accepted (.spaced item) inside) (others : Part.Accepted (.items (next :: items)) more) :
    Part.Accepted (.items (item :: next :: items)) (inside ++ .mark ',' :: more) := by
  intro stack done start awaits _ shallow
  rw [depthOfItems] at shallow
  obtain ⟨stop, reads, holds⟩ := first (.array done :: stack) start awaits (by
    simp only [List.length_cons]
    omega)
  have comma : step stop ',' = .ok ⟨.array (item :: done) :: stack, .value⟩ := by
    rw [holds.step rfl ⟨by decide, by decide, by decide⟩]
    simp [afterValue, Text.isBlank]
  have later := others stack (item :: done) _ (.value _) (by simp) (by omega)
  simpa [Lexeme.text] using reads.append (Reads.cons comma later)

/-- The states in which a key is complete. -/
inductive AfterKey (stack : List Frame) (members : List (Text × Node)) (key : Text) : State → Prop where
  | colon : AfterKey stack members key ⟨stack, .colon members key⟩
  /-- The end of a key without quotes only shows by what follows it. -/
  | bareKey {read : Text} (whole : read.reverse = key) : AfterKey stack members key ⟨stack, .bareKey members read⟩

theorem AfterKey.step {stack : List Frame} {members : List (Text × Node)} {key : Text} {state : State}
    {character : Char} (after : AfterKey stack members key state) (outside : isKeyCharacter character = false) :
    step state character = afterKey stack members key character := by
  cases after with
  | colon => rfl
  | bareKey whole => simp [Document.step, outside, whole]

theorem isKeyCharacter_blank {character : Char} (blank : Text.isBlank character = true) :
    isKeyCharacter character = false := by
  have one : ((character = ' ' ∨ character = '\t') ∨ character = '\n') ∨ character = '\r' := by
    simpa [Text.isBlank] using blank
  rcases one with ((rfl | rfl) | rfl) | rfl <;> decide

/-- Blanks after a key leave it complete. -/
theorem AfterKey.reads_blanks {stack : List Frame} {members : List (Text × Node)} {key : Text}
    {blanks : List Lexeme} {start : State} (after : AfterKey stack members key start) (only : Blanks blanks) :
    ∃ stop, Reads start (textOf blanks) stop ∧ AfterKey stack members key stop := by
  induction blanks generalizing start with
  | nil => exact ⟨start, .nil start, after⟩
  | cons lexeme rest ih =>
    obtain ⟨character, rfl, blank⟩ := only lexeme (by simp)
    have skipped : Document.step start character = .ok ⟨stack, .colon members key⟩ := by
      rw [after.step (isKeyCharacter_blank blank), afterKey, if_pos blank]
    obtain ⟨stop, reads, held⟩ := ih .colon fun later member => only later (by simp [member])
    exact ⟨stop, .cons skipped reads, held⟩

theorem reads_bareKey {stack : List Frame} {members : List (Text × Node)} {text : Text} (read : Text)
    (characters : ∀ character ∈ text, isKeyCharacter character = true) :
    Reads ⟨stack, .bareKey members read⟩ text ⟨stack, .bareKey members (text.reverse ++ read)⟩ := by
  induction text generalizing read with
  | nil => exact .nil _
  | cons character rest ih =>
    have later := ih (character :: read) fun next member => characters next (by simp [member])
    rw [← List.singleton_append, ← List.append_assoc, ← List.reverse_cons] at later
    exact .cons (by rw [step]; simp [characters character (by simp)]) later

/-- A key is read to its end, in whichever way it is written. -/
theorem IsKey.reads {stack : List Frame} {members : List (Text × Node)} {key : Text} {name : Lexeme}
    {start : State} (isKey : IsKey key name) (awaits : AwaitsKey stack members start) :
    ∃ stop, Reads start name.text stop ∧ AfterKey stack members key stop := by
  cases isKey with
  | bare nonempty characters =>
    cases key with
    | nil => exact absurd rfl nonempty
    | cons first rest =>
      have isKeyFirst := characters first (by simp)
      have noBlank : Text.isBlank first = false := by
        by_contra blank
        rw [Bool.not_eq_false] at blank
        rw [isKeyCharacter_blank blank] at isKeyFirst
        exact Bool.noConfusion isKeyFirst
      have others (other : Char) (noKey : isKeyCharacter other = false) : first ≠ other := by
        rintro rfl
        rw [noKey] at isKeyFirst
        exact Bool.noConfusion isKeyFirst
      have begins : step start first = .ok ⟨stack, .bareKey members [first]⟩ := by
        rw [awaits.step noBlank (others '\x7d' (by decide))]
        simp [beginKey, noBlank, others '"' (by decide), isKeyFirst]
      refine ⟨⟨stack, .bareKey members (rest.reverse ++ [first])⟩, .cons begins ?_, .bareKey (by simp)⟩
      exact reads_bareKey [first] fun next member => characters next (by simp [member])
  | quoted proper =>
    have opens : step start '"' = .ok ⟨stack, .quotedKey members [] .plain⟩ := by
      rw [awaits.step rfl (by decide)]
      rfl
    have inside := reads_quotedKey stack members [] proper.readQuoted
    rw [List.append_nil] at inside
    have closes : step ⟨stack, .quotedKey members key.reverse .plain⟩ '"' =
        .ok ⟨stack, .colon members key⟩ := by
      rw [step]
      simp [stepQuoted, bind, Except.bind]
    exact ⟨_, by simpa [Lexeme.text] using Reads.cons opens (inside.append (Reads.one closes)), .colon⟩

private theorem accepted_member {key : Text} {node : Node} {before between value : List Lexeme} {name : Lexeme}
    (front : Blanks before) (isKey : IsKey key name) (middle : Blanks between)
    (back : Part.Accepted (.spaced node) value) :
    Part.Accepted (.member key node) (before ++ name :: between ++ .mark ':' :: value) := by
  intro stack done start awaits shallow
  obtain ⟨keyEnd, readsKey, after⟩ := isKey.reads awaits
  obtain ⟨beforeColon, readsBetween, after⟩ := after.reads_blanks middle
  have colon : step beforeColon ':' = .ok ⟨.object done key :: stack, .value⟩ := by
    rw [after.step (by decide)]
    rfl
  obtain ⟨stop, reads, holds⟩ := back (.object done key :: stack) _ (.value _) (by simpa using shallow)
  refine ⟨stop, ?_, holds⟩
  have upToColon := (reads_blanks front awaits.blank).append (readsKey.append readsBetween)
  simpa [Lexeme.text] using upToColon.append (Reads.cons colon reads)

private theorem accepted_lastMember {key : Text} {node : Node} {inside : List Lexeme}
    (last : Part.Accepted (.member key node) inside) : Part.Accepted (.members [(key, node)]) inside := by
  intro stack done start awaits _ shallow
  obtain ⟨stop, reads, holds⟩ := last stack done start awaits (by
    simp only [depthOfMembers] at shallow
    omega)
  refine reads.append (Reads.one ?_)
  rw [holds.step rfl ⟨by decide, by decide, by decide⟩]
  simp [afterValue, Text.isBlank]

private theorem accepted_nextMember {key : Text} {node : Node} {next : Text × Node}
    {members : List (Text × Node)} {inside more : List Lexeme}
    (first : Part.Accepted (.member key node) inside) (others : Part.Accepted (.members (next :: members)) more) :
    Part.Accepted (.members ((key, node) :: next :: members)) (inside ++ .mark ',' :: more) := by
  intro stack done start awaits _ shallow
  rw [depthOfMembers] at shallow
  obtain ⟨stop, reads, holds⟩ := first stack done start awaits (by omega)
  have comma : step stop ',' = .ok ⟨stack, .key ((key, node) :: done)⟩ := by
    rw [holds.step rfl ⟨by decide, by decide, by decide⟩]
    simp [afterValue, Text.isBlank]
  have later := others stack ((key, node) :: done) _ (.key _ _) (by simp) (by omega)
  simpa [Lexeme.text] using reads.append (Reads.cons comma later)

/-- Every phrase is accepted where it is expected, unless it is nested too deep. -/
theorem Phrase.accepted {part : Part} {lexemes : List Lexeme} (phrase : Phrase part lexemes) :
    part.Accepted lexemes := by
  induction phrase with
  | string proper => exact accepted_string proper
  | integer number =>
    intro stack _
    obtain ⟨part, integer, reads⟩ := number.reads stack
    refine ⟨_, by simpa [Lexeme.text] using reads, .number ?_ ?_⟩
    · rcases integer with rfl | rfl <;> rfl
    · rcases integer with rfl | rfl <;> simp [NumberPart.node]
  | decimal number =>
    intro stack _
    obtain ⟨part, decimal, reads⟩ := number.reads stack
    refine ⟨_, by simpa [Lexeme.text] using reads, .number ?_ ?_⟩
    · rcases decimal with rfl | rfl <;> rfl
    · rcases decimal with rfl | rfl <;> rfl
  | word known => exact accepted_word known
  | array _ ih => exact accepted_array ih
  | object _ ih => exact accepted_object ih
  | spaced front inner back ih => exact accepted_spaced front inner ih back
  | noItems only =>
    intro stack done start awaits first _
    obtain rfl := first rfl
    cases awaits
    exact (reads_blanks only (AwaitsValue.firstItem stack).blank).append (Reads.one rfl)
  | lastItem _ ih => exact accepted_lastItem ih
  | nextItem _ _ first others => exact accepted_nextItem first others
  | member front isKey middle _ ih => exact accepted_member front isKey middle ih
  | noMembers only =>
    intro stack done start awaits first _
    obtain rfl := first rfl
    cases awaits
    exact (reads_blanks only (AwaitsKey.firstKey stack).blank).append (Reads.one rfl)
  | lastMember _ ih => exact accepted_lastMember ih
  | nextMember _ _ first others => exact accepted_nextMember first others

/-- **The reader accepts what the grammar allows**, as long as it is not nested
too deep, and makes the tree that the grammar says. -/
theorem parse_of_denotes {lexemes : List Lexeme} {root : Node} (denotes : Denotes lexemes root)
    (shallow : root.depth ≤ depthLimit) : parse (textOf lexemes) = .ok root := by
  obtain ⟨stop, reads, holds⟩ := Phrase.accepted denotes [] State.initial (.value []) (by simpa using shallow)
  have finished : finish stop = .ok root := by
    cases holds with
    | complete => rfl
    | number ends denotes => simp [finish, ends, denotes, finishValue]
  simp only [parse, reads 0, bind, Except.bind, finished]

/-- A string literal is read as a string, whatever it means. -/
theorem parse_literal {contents : Text} (proper : Contents contents) : parse ('"' :: contents ++ ['"']) = .ok .other := by
  have parsed := parse_of_denotes (Phrase.string proper).spaced_value (Nat.zero_le _)
  simpa [Lexeme.text] using parsed

end Stencil.Document
