import Stencil.Proofs.Document.Soundness
import Stencil.Proofs.Document.Completeness

/-! Where a text stops being a document. In every state of the reader, what is
begun can be finished and what is open can be closed, so all that the reader
takes is the beginning of some document, and a character that it refuses is one
with which no document goes on. Words are the exception: a word that turns out to
be misspelt is given back, and the error is at its first letter. -/
namespace Stencil.Document

variable {stack : List Frame} {members : List (Text × Node)} {key text rest : Text} {node : Node} {state : State}

/-! ### Finishing what is begun -/

/-- From a state, the reader can get to the end of a value in the given containers. -/
def CanFinish (stack : List Frame) (state : State) : Prop :=
  ∃ text stop node, Reads state text stop ∧ Holds stack node stop

theorem Holds.canFinish (holds : Holds stack node state) : CanFinish stack state :=
  ⟨[], state, node, .nil state, holds⟩

/-- What can be finished behind some text can be finished in front of it. -/
theorem CanFinish.after {start : State} (later : CanFinish stack state) (reads : Reads start text state) :
    CanFinish stack start := by
  obtain ⟨rest, stop, node, readsRest, holds⟩ := later
  exact ⟨text ++ rest, stop, node, reads.append readsRest, holds⟩

/-- A brace ends an object behind its last value. -/
theorem Holds.closes_object (holds : Holds (.object members key :: stack) node state) :
    CanFinish stack state := by
  have brace : Document.step state '\x7d' = .ok ⟨stack, .complete (.object ((key, node) :: members).reverse)⟩ := by
    rw [holds.step rfl ⟨by decide, by decide, by decide⟩]
    rfl
  exact Holds.complete.canFinish.after (.one brace)

/-- A bracket ends an array behind its last item. -/
theorem Holds.closes_array {items : List Node} (holds : Holds (.array items :: stack) node state) :
    CanFinish stack state := by
  have bracket : Document.step state ']' = .ok ⟨stack, .complete (.array (node :: items).reverse)⟩ := by
    rw [holds.step rfl ⟨by decide, by decide, by decide⟩]
    rfl
  exact Holds.complete.canFinish.after (.one bracket)

/-- Behind a key come a colon, a value and the brace. -/
theorem AfterKey.canFinish (after : AfterKey stack members key state) : CanFinish stack state := by
  have colon : Document.step state ':' = .ok ⟨.object members key :: stack, .value⟩ := by
    rw [after.step (by decide)]
    rfl
  have zero : Document.step ⟨.object members key :: stack, .value⟩ '0' =
      .ok ⟨.object members key :: stack, .number .zero ['0']⟩ := rfl
  have value : Holds (.object members key :: stack) (.integer ['0'])
      ⟨.object members key :: stack, .number .zero ['0']⟩ := .number rfl rfl
  exact value.closes_object.after (.cons colon (.one zero))

/-- Every escape sequence can be completed. -/
theorem exists_readQuoted_plain (quoted : Quoted) : ∃ text, readQuoted quoted text = some .plain := by
  cases quoted with
  | plain => exact ⟨[], rfl⟩
  | escape => exact ⟨['n'], rfl⟩
  | hex more =>
    induction more with
    | zero => exact ⟨['0'], rfl⟩
    | succ more ih =>
      obtain ⟨digits, inside⟩ := ih
      exact ⟨'0' :: digits, inside⟩

/-- Every number can be completed. -/
theorem exists_readNumber_complete (part : NumberPart) :
    ∃ text last, readNumber part text = some last ∧ last.isComplete = true := by
  cases part with
  | zero | integer | fraction | exponent => exact ⟨[], _, rfl, rfl⟩
  | minus | point | exponentMark | exponentSign => exact ⟨['0'], _, rfl, rfl⟩

/-- The letters of a word that are left complete it. -/
theorem reads_word (read later : Text) (letter : Char) :
    Reads ⟨stack, .word read letter later⟩ (letter :: later) ⟨stack, .complete .other⟩ := by
  induction later generalizing read letter with
  | nil =>
    refine .one ?_
    simp [step]
  | cons next later ih =>
    have taken : step ⟨stack, .word read letter (next :: later)⟩ letter =
        .ok ⟨stack, .word (read ++ [letter]) next later⟩ := by
      simp [step]
    exact .cons taken (ih (read ++ [letter]) next)

/-- Whatever the reader is in the middle of can be finished. -/
theorem State.canFinish (state : State) : CanFinish state.stack state := by
  obtain ⟨stack, mode⟩ := state
  have afterString : CanFinish stack ⟨stack, .complete .other⟩ := Holds.complete.canFinish
  cases mode with
  | value =>
    have zero : step ⟨stack, .value⟩ '0' = .ok ⟨stack, .number .zero ['0']⟩ := rfl
    have holds : Holds stack (.integer ['0']) ⟨stack, .number .zero ['0']⟩ := .number rfl rfl
    exact holds.canFinish.after (.one zero)
  | firstItem => exact Holds.complete.canFinish.after (.one rfl : Reads _ [']'] ⟨stack, .complete (.array [])⟩)
  | firstKey => exact Holds.complete.canFinish.after (.one rfl : Reads _ ['\x7d'] ⟨stack, .complete (.object [])⟩)
  | key members =>
    have begins : step ⟨stack, .key members⟩ 'k' = .ok ⟨stack, .bareKey members ['k']⟩ := rfl
    have named : AfterKey stack members ['k'] ⟨stack, .bareKey members ['k']⟩ := .bareKey rfl
    exact named.canFinish.after (.one begins)
  | bareKey members read => exact (AfterKey.bareKey rfl : AfterKey stack members read.reverse _).canFinish
  | quotedKey members read quoted =>
    obtain ⟨contents, inside⟩ := exists_readQuoted_plain quoted
    have reads := reads_quotedKey stack members read inside
    have closes : step ⟨stack, .quotedKey members (contents.reverse ++ read) .plain⟩ '"' =
        .ok ⟨stack, .colon members (contents.reverse ++ read).reverse⟩ := rfl
    exact AfterKey.colon.canFinish.after (reads.append (.one closes))
  | colon members key => exact (AfterKey.colon : AfterKey stack members key _).canFinish
  | string quoted =>
    obtain ⟨contents, inside⟩ := exists_readQuoted_plain quoted
    have closes : step ⟨stack, .string .plain⟩ '"' = .ok ⟨stack, .complete .other⟩ := rfl
    exact afterString.after ((reads_string stack inside).append (.one closes))
  | number part read =>
    obtain ⟨digits, last, inside, ends⟩ := exists_readNumber_complete part
    have holds : Holds stack (last.node (digits.reverse ++ read)) ⟨stack, .number last (digits.reverse ++ read)⟩ :=
      .number ends rfl
    exact holds.canFinish.after (reads_number stack read inside)
  | word read letter later => exact afterString.after (reads_word read later letter)
  | complete node => exact Holds.complete.canFinish

/-- Containers can be closed one after the other. -/
theorem CanFinish.root (finishes : CanFinish stack state) : CanFinish [] state := by
  induction stack generalizing state with
  | nil => exact finishes
  | cons frame stack ih =>
    obtain ⟨text, stop, node, reads, holds⟩ := finishes
    cases frame with
    | object members key => exact (ih holds.closes_object).after reads
    | array items => exact (ih holds.closes_array).after reads

theorem Holds.finish (holds : Holds [] node state) : finish state = .ok node := by
  cases holds with
  | complete => rfl
  | number ends denotes => simp [Document.finish, ends, denotes, finishValue]

/-- **What the reader takes is the beginning of a document.** -/
theorem exists_document_of_run (ran : run State.initial 0 text = .ok state) :
    ∃ rest root, parse (text ++ rest) = .ok root := by
  obtain ⟨rest, stop, root, reads, holds⟩ := state.canFinish.root
  refine ⟨rest, root, ?_⟩
  simp only [parse, run_append ran, reads _, bind, Except.bind, holds.finish]

/-! ### Where the reader stops -/

/-- The reader stops right at a character: it takes nothing back, and where it
needs a value the character is not the first letter of a word. -/
def Stop.IsAt (stop : Stop) (character : Char) : Prop :=
  stop.back = [] ∧ (stop.expected = .value → ∀ word ∈ words, word.head? ≠ some character)

/-- Where something else than a value is missing, a stop is at the character. -/
theorem Stop.isAt_of_ne {expected : Expectation} (character : Char) (other : expected ≠ .value := by simp) :
    (⟨expected, []⟩ : Stop).IsAt character :=
  ⟨rfl, fun value => absurd value other⟩

/-- What a step comes to: the next state, in which a word is begun with a letter
if at all; a stop at the character; or a stop inside of a word, all of whose
letters are given back. -/
inductive Outcome (state : State) (character : Char) : Except Stop State → Prop where
  | next {next : State} (begun : ∀ letter later, next.mode ≠ .word [] letter later := by simp) :
      Outcome state character (.ok next)
  | here {stop : Stop} (isAt : stop.IsAt character) : Outcome state character (.error stop)
  | word {read later : Text} {letter : Char} (within : state.mode = .word read letter later)
      (other : character ≠ letter) : Outcome state character (.error ⟨.value, read⟩)

namespace Outcome

variable {character : Char}

theorem choose {condition : Prop} [Decidable condition] {first second : Except Stop State}
    (yes : condition → Outcome state character first) (no : ¬ condition → Outcome state character second) :
    Outcome state character (if condition then first else second) := by
  by_cases holds : condition
  · rw [if_pos holds]
    exact yes holds
  · rw [if_neg holds]
    exact no holds

theorem missing {expected : Expectation} (other : expected ≠ .value := by simp) :
    Outcome state character (.error ⟨expected, []⟩) :=
  .here (Stop.isAt_of_ne character other)

theorem beginValue (stack : List Frame) : Outcome state character (Document.beginValue stack character) := by
  unfold Document.beginValue
  refine .choose (fun _ => .choose (fun _ => .next) fun _ => .missing) fun _ => ?_
  refine .choose (fun _ => .choose (fun _ => .next) fun _ => .missing) fun _ => ?_
  refine .choose (fun _ => .next) fun _ => ?_
  refine .choose (fun _ => .next) fun _ => ?_
  refine .choose (fun _ => .next) fun _ => ?_
  refine .choose (fun _ => .next) fun _ => ?_
  refine .choose (fun _ => .next) fun noTrue => ?_
  refine .choose (fun _ => .next) fun noFalse => ?_
  refine .choose (fun _ => .next) fun noNull => ?_
  refine .here ⟨rfl, fun _ => ?_⟩
  simp [words, Ne.symm noTrue, Ne.symm noFalse, Ne.symm noNull]

theorem beginKey (stack : List Frame) (members : List (Text × Node)) :
    Outcome state character (Document.beginKey stack members character) := by
  unfold Document.beginKey
  refine .choose (fun _ => .next) fun _ => ?_
  refine .choose (fun _ => .next) fun _ => ?_
  exact .choose (fun _ => .next) fun _ => .missing

theorem afterKey (stack : List Frame) (members : List (Text × Node)) (key : Text) :
    Outcome state character (Document.afterKey stack members key character) := by
  unfold Document.afterKey
  refine .choose (fun _ => .next) fun _ => ?_
  exact .choose (fun _ => .next) fun _ => .missing

theorem afterValue (stack : List Frame) (node : Node) :
    Outcome state character (Document.afterValue stack node character) := by
  have follower : followerOf stack ≠ .value := by
    cases stack with
    | nil => simp [followerOf]
    | cons frame stack => cases frame <;> simp [followerOf]
  unfold Document.afterValue
  refine .choose (fun _ => .next) fun _ => ?_
  cases stack with
  | nil => exact .missing follower
  | cons frame stack =>
    cases frame with
    | object members key =>
      exact .choose (fun _ => .next) fun _ => .choose (fun _ => .next) fun _ => .missing follower
    | array items =>
      exact .choose (fun _ => .next) fun _ => .choose (fun _ => .next) fun _ => .missing follower

end Outcome

/-- If an outcome is a stop, it is one at the character. -/
def RefusedAt {α : Type} (character : Char) (outcome : Except Stop α) : Prop :=
  ∀ stop, outcome = .error stop → stop.IsAt character

namespace RefusedAt

variable {α : Type} {character : Char}

theorem ok {value : α} : RefusedAt character (.ok value) := by
  intro stop refused
  cases refused

theorem error {expected : Expectation} (other : expected ≠ .value := by simp) :
    RefusedAt character (.error ⟨expected, []⟩ : Except Stop α) := by
  intro stop refused
  cases refused
  exact Stop.isAt_of_ne character other

theorem choose {condition : Prop} [Decidable condition] {first second : Except Stop α}
    (yes : RefusedAt character first) (no : RefusedAt character second) :
    RefusedAt character (if condition then first else second) := by
  by_cases holds : condition
  · rwa [if_pos holds]
  · rwa [if_neg holds]

end RefusedAt

/-- A character that cannot stand in a literal is refused there. -/
theorem isAt_of_stepQuoted {quoted : Quoted} {character : Char} {stop : Stop}
    (refused : stepQuoted quoted character = .error stop) : stop.IsAt character := by
  have refusedAt : RefusedAt character (stepQuoted quoted character) := by
    cases quoted with
    | plain => exact .choose .ok (.choose .ok (.choose .error .ok))
    | escape => exact .choose .ok (.choose .ok .error)
    | hex more => exact .choose .ok .error
  exact refusedAt stop refused

/-- A character that a number cannot go on with is refused there. -/
theorem isAt_of_stepNumber {part : NumberPart} {character : Char} {stop : Stop}
    (refused : stepNumber part character = .error stop) : stop.IsAt character := by
  have refusedAt : RefusedAt character (stepNumber part character) := by
    cases part with
    | minus | exponentMark => exact .choose .ok (.choose .ok .error)
    | point | exponentSign => exact .choose .ok .error
    | zero | fraction => exact .choose .ok (.choose .ok .ok)
    | integer => exact .choose .ok (.choose .ok (.choose .ok .ok))
    | exponent => exact .choose .ok .ok
  exact refusedAt stop refused

/-- **What a step comes to.** -/
theorem outcome_step (state : State) (character : Char) : Outcome state character (step state character) := by
  obtain ⟨stack, mode⟩ := state
  cases mode with
  | value => exact .choose (fun _ => .next) fun _ => .beginValue stack
  | firstItem =>
    refine .choose (fun _ => .next) fun _ => ?_
    exact .choose (fun _ => .next) fun _ => .beginValue (.array [] :: stack)
  | firstKey =>
    refine .choose (fun _ => .next) fun _ => ?_
    exact .choose (fun _ => .next) fun _ => .beginKey stack []
  | key members => exact .beginKey stack members
  | bareKey members read => exact .choose (fun _ => .next) fun _ => .afterKey stack members read.reverse
  | quotedKey members read quoted | string quoted =>
    simp only [step, bind, Except.bind]
    cases stepped : stepQuoted quoted character with
    | error stop => exact .here (isAt_of_stepQuoted stepped)
    | ok outcome => cases outcome <;> exact .next
  | colon members key => exact .afterKey stack members key
  | number part read =>
    simp only [step, bind, Except.bind]
    cases stepped : stepNumber part character with
    | error stop => exact .here (isAt_of_stepNumber stepped)
    | ok outcome =>
      cases outcome with
      | none => exact .afterValue stack (part.node read)
      | some next => exact .next
  | word read letter later =>
    refine .choose (fun _ => ?_) fun other => .word rfl other
    cases later with
    | nil => exact .next
    | cons next later => exact .next fun _ _ same => by simp at same
  | complete node => exact .afterValue stack node

/-- A text that ends too early ends at that place, or in the middle of a word. -/
theorem back_of_finish {stop : Stop} (refused : finish state = .error stop) :
    stop.back = [] ∨ ∃ letter later, state.mode = .word stop.back letter later := by
  obtain ⟨stack, mode⟩ := state
  have within {node : Node} (refused : finishValue stack node = .error stop) : stop.back = [] := by
    unfold finishValue at refused
    split at refused
    · cases refused
    · cases refused
      rfl
  cases mode with
  | value | firstItem | firstKey | key | bareKey | quotedKey | colon | string =>
    cases refused
    exact .inl rfl
  | number part read =>
    simp only [finish] at refused
    split at refused
    · exact .inl (within refused)
    · cases refused
      exact .inl rfl
  | word read letter later =>
    cases refused
    exact .inr ⟨letter, later, rfl⟩
  | complete node => exact .inl (within refused)

/-! ### Runs up to an error -/

/-- The first part of a text that is taken is taken. -/
theorem exists_run_of_append {start last : State} {position : Nat} {front back : Text}
    (ran : run start position (front ++ back) = .ok last) : ∃ middle, run start position front = .ok middle := by
  induction front generalizing start position with
  | nil => exact ⟨start, rfl⟩
  | cons character front ih =>
    rw [List.cons_append, run] at ran
    rw [run]
    cases taken : step start character with
    | error stop => simp [taken] at ran
    | ok next =>
      simp only [taken] at ran
      exact ih ran

/-- A run ends in a state without a word that was not begun. -/
theorem begun_of_run {start last : State} {position : Nat} (ran : run start position text = .ok last)
    (begun : ∀ letter later, start.mode ≠ .word [] letter later) :
    ∀ letter later, last.mode ≠ .word [] letter later := by
  induction text generalizing start position with
  | nil =>
    obtain rfl := Except.ok.inj ran
    exact begun
  | cons character rest ih =>
    have outcome := outcome_step start character
    rw [run] at ran
    cases taken : step start character with
    | error stop => simp [taken] at ran
    | ok next =>
      simp only [taken] at ran
      rw [taken] at outcome
      cases outcome with
      | next begun => exact ih ran begun

/-- In the middle of a word, its first letters are the last that was taken. -/
theorem word_of_run {read later : Text} {letter : Char} (ran : run State.initial 0 text = .ok state)
    (within : state.mode = .word read letter later) :
    read ≠ [] ∧ read ++ letter :: later ∈ words ∧ ∃ front, text = front ++ read := by
  obtain ⟨stack, mode⟩ := state
  subst within
  have begun := begun_of_run ran (by simp [State.initial]) letter later
  have begin : Taken State.initial [] := (Reached.value .root .nil).taken
  obtain ⟨lexemes, _, reached, text_eq⟩ := begin.run ran
  cases reached with
  | word outer front known =>
    rw [List.nil_append] at text_eq
    exact ⟨fun empty => begun (by rw [empty]), known, _, text_eq⟩

/-- Why the reader cannot go on with the rest of a text, or cannot end there. -/
def State.StopsAt (state : State) : (rest : Text) → Stop → Prop
  | [], stop => finish state = .error stop
  | character :: _, stop => step state character = .error stop

theorem run_eq_error {start : State} {position : Nat} {error : SyntaxError}
    (failed : run start position text = .error error) :
    ∃ read character rest state stop, text = read ++ character :: rest ∧ run start position read = .ok state ∧
      step state character = .error stop ∧
      error = stop.toSyntaxError (position + Text.size read) (character :: rest) := by
  induction text generalizing start position with
  | nil => cases failed
  | cons character rest ih =>
    rw [run] at failed
    cases taken : step start character with
    | error stop =>
      rw [taken] at failed
      exact ⟨[], character, rest, start, stop, rfl, rfl, taken, (Except.error.inj failed).symm⟩
    | ok next =>
      simp only [taken] at failed
      obtain ⟨read, refused, later, state, stop, rfl, ran, stepped, rfl⟩ := ih failed
      refine ⟨character :: read, refused, later, state, stop, rfl, ?_, stepped, ?_⟩
      · rw [run, taken]
        exact ran
      · rw [Text.size_cons, Nat.add_assoc]

/-- A text that is no document is taken up to the place where the reader stops. -/
theorem parse_eq_error {error : SyntaxError} (failed : parse text = .error error) :
    ∃ read rest state stop, text = read ++ rest ∧ run State.initial 0 read = .ok state ∧
      state.StopsAt rest stop ∧ error = stop.toSyntaxError (Text.size read) rest := by
  rw [parse] at failed
  cases ran : run State.initial 0 text with
  | error failure =>
    obtain ⟨read, character, rest, state, stop, rfl, reads, stepped, rfl⟩ := run_eq_error ran
    rw [ran] at failed
    refine ⟨read, character :: rest, state, stop, rfl, reads, stepped, ?_⟩
    rw [← Except.error.inj failed, Nat.zero_add]
  | ok state =>
    cases ended : finish state with
    | ok root => simp [ran, ended, bind, Except.bind] at failed
    | error stop =>
      simp only [ran, ended, bind, Except.bind, Except.error.injEq] at failed
      exact ⟨text, [], state, stop, by simp, ran, ended, failed.symm⟩

/-- No document goes on from a text that was taken with a character that is refused. -/
theorem parse_ne_ok_of_step {character : Char} {stop : Stop} (ran : run State.initial 0 text = .ok state)
    (refused : step state character = .error stop) (rest : Text) (root : Node) :
    parse (text ++ character :: rest) ≠ .ok root := by
  simp [parse, run_append ran, run, refused, bind, Except.bind]

/-- The words begin with three letters. -/
theorem words_head {word : Text} {first : Char} (known : word ∈ words) (isHead : word.head? = some first) :
    first = 't' ∨ first = 'f' ∨ first = 'n' := by
  simp only [words, List.mem_cons, List.not_mem_nil, or_false] at known
  rcases known with rfl | rfl | rfl <;> cases isHead <;> simp

/-- The first letter tells the words apart. -/
theorem words_head_injective {word other : Text} (known : word ∈ words) (known' : other ∈ words)
    (same : word.head? = other.head?) : word = other := by
  simp only [words, List.mem_cons, List.not_mem_nil, or_false] at known known'
  rcases known with rfl | rfl | rfl <;> rcases known' with rfl | rfl | rfl <;> first | rfl | simp at same

/-- What is wrong with the rest of a text after a state: there is none, its first
character is refused, or it begins with some letters of a word but not with the word. -/
inductive Fault (state : State) : (back : Text) → Expectation → Prop where
  | ended {expected : Expectation} : Fault state [] expected
  | refused {character : Char} {rest : Text} {stop : Stop} (refused : step state character = .error stop)
      (isAt : stop.IsAt character) : Fault state (character :: rest) stop.expected
  | misspelt {begun rest later : Text} {letter : Char} (nonempty : begun ≠ [])
      (known : begun ++ letter :: later ∈ words) (other : rest.head? ≠ some letter) :
      Fault state (begun ++ rest) .value

/-- A text is taken up to an error, and there is a fault behind it. -/
def FaultAt (text : Text) (error : SyntaxError) : Prop :=
  ∃ front back state, text = front ++ back ∧ run State.initial 0 front = .ok state ∧
    error.position = Text.size front ∧ error.found = back.head? ∧ Fault state back error.expected

/-- A stop in the middle of a word gives its letters back, and the fault is where they begin. -/
theorem faultAt_of_word {read rest later : Text} {letter : Char} {stop : Stop}
    (ran : run State.initial 0 read = .ok state) (expects : stop.expected = .value)
    (within : state.mode = .word stop.back letter later) (other : rest.head? ≠ some letter) :
    FaultAt (read ++ rest) (stop.toSyntaxError (Text.size read) rest) := by
  obtain ⟨nonempty, known, front, rfl⟩ := word_of_run ran within
  obtain ⟨before, taken⟩ := exists_run_of_append ran
  refine ⟨front, stop.back ++ rest, before, List.append_assoc .., taken, ?_, rfl, ?_⟩
  · simp [Stop.toSyntaxError]
  · simp only [Stop.toSyntaxError, expects]
    exact .misspelt nonempty known other

/-- A text that is no document has a fault where the reader stops. -/
theorem faultAt_of_parse {error : SyntaxError} (failed : parse text = .error error) : FaultAt text error := by
  obtain ⟨read, rest, state, stop, rfl, ran, stops, rfl⟩ := parse_eq_error failed
  cases rest with
  | nil =>
    rcases back_of_finish stops with atEnd | ⟨letter, later, within⟩
    · refine ⟨read, [], state, rfl, ran, ?_, ?_, .ended⟩ <;> simp [Stop.toSyntaxError, atEnd]
    · refine faultAt_of_word ran ?_ within (by simp)
      obtain ⟨stack, mode⟩ := state
      subst within
      exact (congrArg Stop.expected (Except.error.inj stops)).symm
  | cons character rest =>
    have outcome := outcome_step state character
    rw [State.StopsAt] at stops
    rw [stops] at outcome
    cases outcome with
    | here isAt =>
      refine ⟨read, character :: rest, state, rfl, ran, ?_, ?_, .refused stops isAt⟩
      · simp [Stop.toSyntaxError, isAt.1]
      · simp [Stop.toSyntaxError, isAt.1]
    | word within other => exact faultAt_of_word ran rfl within (by simpa using other)

/-- **A text that is no document is refused at the first place where it goes wrong.**
Up to the position of the error it is the beginning of a document. What was found
there is the next character, and nothing at the end of the text. With that
character no document goes on, except where a value was needed and the character
is the first letter of a word; then the text goes on with another text than the
word. -/
theorem rejected_at_first_fault {error : SyntaxError} (failed : parse text = .error error) :
    ∃ front back, text = front ++ back ∧ error.position = Text.size front ∧ error.found = back.head? ∧
      (error.found = none ↔ error.position = Text.size text) ∧
      (∃ rest root, parse (front ++ rest) = .ok root) ∧
      ∀ character, error.found = some character →
        (¬ (error.expected = .value ∧ (character = 't' ∨ character = 'f' ∨ character = 'n')) →
          ∀ rest root, parse (front ++ character :: rest) ≠ .ok root) ∧
        (error.expected = .value → ∀ word ∈ words, word.head? = some character → ¬ word <+: back) := by
  obtain ⟨front, back, state, rfl, taken, position, found, fault⟩ := faultAt_of_parse failed
  refine ⟨front, back, rfl, position, found, ?_, exists_document_of_run taken, ?_⟩
  · rw [found, position, Text.size_append, List.head?_eq_none_iff]
    constructor
    · rintro rfl
      rfl
    · intro same
      exact Text.size_eq_zero_iff.mp (by omega)
  rintro character isNext
  rw [found] at isNext
  generalize error.expected = expected at fault ⊢
  cases fault with
  | ended => cases isNext
  | refused refused isAt =>
    obtain rfl := Option.some.inj isNext
    refine ⟨fun _ => parse_ne_ok_of_step taken refused, ?_⟩
    intro needed word known isHead
    exact absurd isHead (isAt.2 needed word known)
  | @misspelt begun rest later letter nonempty known other =>
    obtain ⟨first, begun, rfl⟩ := List.exists_cons_of_ne_nil nonempty
    obtain rfl : first = character := Option.some.inj isNext
    constructor
    · intro allowed
      exact absurd ⟨rfl, words_head known rfl⟩ allowed
    · rintro - word known' isHead ⟨after, spelt⟩
      obtain rfl : word = first :: begun ++ letter :: later := words_head_injective known' known isHead
      refine other ?_
      have same : letter :: later ++ after = rest := by simpa using spelt
      rw [← same]
      rfl

theorem second_item_refused :
    parse "[1 2]".toList = .error ⟨3, some '2', .commaOrBracket⟩ ∧
      ∀ rest root, parse ("[1 ".toList ++ '2' :: rest) ≠ .ok root := by
  have failed : parse "[1 2]".toList = .error ⟨3, some '2', .commaOrBracket⟩ := rfl
  refine ⟨failed, ?_⟩
  obtain ⟨front, back, split, position, -, -, -, fault⟩ := rejected_at_first_fault failed
  have here : "[1 ".toList ++ "2]".toList = front ++ back := split
  obtain ⟨rfl, rfl⟩ := Text.append_inj_of_size here position
  exact (fault '2' rfl).1 (by simp)

end Stencil.Document
