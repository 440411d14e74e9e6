import Mathlib.Data.List.Forall2
import Stencil.Proofs.Document.FirstFault
import Stencil.Proofs.Document.Numerals
import Stencil.Proofs.Template.Marks

/-! Two readings in lockstep. The same marks are filled in with different whole
numbers, and both texts are read. The reader is in the same place of the
document at every mark; what it remembers was made of the same marks; and when
it stops, it stops at the same mark for the same reason. -/
namespace Stencil

open Document

/-- The same marks with two texts for each occurrence. -/
structure Twins where
  marks : List Mark
  left : Occurrence → Text
  right : Occurrence → Text

namespace Twins

variable (twins : Twins)

/-- The texts for the occurrences are whole numbers. -/
structure Numeric : Prop where
  left : ∀ found, .occurrence found ∈ twins.marks → Numeral (twins.left found)
  right : ∀ found, .occurrence found ∈ twins.marks → Numeral (twins.right found)

/-- Two texts are made of the same marks. -/
def SameText (text other : Text) : Prop :=
  ∃ part, part <:+: twins.marks ∧ text = filledOf twins.left part ∧ other = filledOf twins.right part

/-- Two keys, or two integers, are made of the same marks. -/
inductive SameToken : Token → Token → Prop where
  | key {text other : Text} (same : twins.SameText text other) : SameToken (.key text) (.key other)
  | integer {text other : Text} (same : twins.SameText text other) : SameToken (.integer text) (.integer other)

/-- Keys and integers that are made of the same marks, one by one. -/
def SameTokens (tokens others : List Token) : Prop := List.Forall₂ twins.SameToken tokens others

def SameNode (node node' : Node) : Prop := twins.SameTokens node.tokens node'.tokens

/-- Items and members are kept with the latest first. -/
def SameItems (items others : List Node) : Prop :=
  twins.SameTokens (tokensOfItems items.reverse) (tokensOfItems others.reverse)

def SameMembers (members others : List (Text × Node)) : Prop :=
  twins.SameTokens (tokensOfMembers members.reverse) (tokensOfMembers others.reverse)

inductive SameFrame : Frame → Frame → Prop where
  | object {members others : List (Text × Node)} {key key' : Text} (inner : twins.SameMembers members others)
      (name : twins.SameText key key') : SameFrame (.object members key) (.object others key')
  | array {items others : List Node} (inner : twins.SameItems items others) :
      SameFrame (.array items) (.array others)

def SameStack (stack other : List Frame) : Prop := List.Forall₂ twins.SameFrame stack other

/-- Texts that are still being read, made of the last marks that were read. -/
def Pending (done : List Mark) (read other : Text) : Prop :=
  ∃ part, part <:+ done ∧ read.reverse = filledOf twins.left part ∧ other.reverse = filledOf twins.right part

/-- After the given marks, both readers are in the middle of the same. -/
inductive SameMode (done : List Mark) : Mode → Mode → Prop where
  | value : SameMode done .value .value
  | firstItem : SameMode done .firstItem .firstItem
  | firstKey : SameMode done .firstKey .firstKey
  | key {members others : List (Text × Node)} (inner : twins.SameMembers members others) :
      SameMode done (.key members) (.key others)
  | bareKey {members others : List (Text × Node)} {read read' : Text} (inner : twins.SameMembers members others)
      (pending : twins.Pending done read read') : SameMode done (.bareKey members read) (.bareKey others read')
  | quotedKey {members others : List (Text × Node)} {read read' : Text} {quoted : Quoted}
      (inner : twins.SameMembers members others) (pending : twins.Pending done read read') :
      SameMode done (.quotedKey members read quoted) (.quotedKey others read' quoted)
  | colon {members others : List (Text × Node)} {key key' : Text} (inner : twins.SameMembers members others)
      (name : twins.SameText key key') : SameMode done (.colon members key) (.colon others key')
  | string {quoted : Quoted} : SameMode done (.string quoted) (.string quoted)
  | number {part : NumberPart} {read read' : Text} (pending : twins.Pending done read read') :
      SameMode done (.number part read) (.number part read')
  /-- The letters of a word are literal. -/
  | word {read later : Text} {next : Char} (literal : read.map .character <:+ done) :
      SameMode done (.word read next later) (.word read next later)
  | complete {node node' : Node} (same : twins.SameNode node node') :
      SameMode done (.complete node) (.complete node')

/-- Both readers are in the same place. -/
structure Same (done : List Mark) (state other : State) : Prop where
  stack : twins.SameStack state.stack other.stack
  mode : twins.SameMode done state.mode other.mode

/-- Both readers go on to the same place, or both stop for the same reason. -/
inductive SameOutcome (before after : List Mark) : Except Stop State → Except Stop State → Prop where
  | ok {state other : State} (same : twins.Same after state other) : SameOutcome before after (.ok state) (.ok other)
  | error {stop : Stop} (literal : stop.back.map .character <:+ before) :
      SameOutcome before after (.error stop) (.error stop)

end Twins

namespace Twins

variable {twins : Twins} {before after done : List Mark} {stack stack' : List Frame}

theorem SameOutcome.refused {expected : Expectation} :
    twins.SameOutcome before after (.error ⟨expected, []⟩) (.error ⟨expected, []⟩) :=
  .error (List.nil_suffix)

theorem SameOutcome.next {mode mode' : Mode} (same : twins.SameStack stack stack')
    (next : twins.SameMode after mode mode') :
    twins.SameOutcome before after (.ok ⟨stack, mode⟩) (.ok ⟨stack', mode'⟩) := .ok ⟨same, next⟩

/-- A choice that does not depend on what was read goes the same way in both. -/
theorem SameOutcome.choose {condition : Prop} [Decidable condition] {yes no yes' no' : Except Stop State}
    (whenTrue : condition → twins.SameOutcome before after yes yes')
    (whenFalse : ¬ condition → twins.SameOutcome before after no no') :
    twins.SameOutcome before after (if condition then yes else no) (if condition then yes' else no') := by
  split
  · exact whenTrue ‹_›
  · exact whenFalse ‹_›

theorem Pending.first (character : Char) : twins.Pending (done ++ [.character character]) [character] [character] :=
  ⟨[.character character], List.suffix_append _ _, rfl, rfl⟩

/-- Reading goes on with a mark. -/
theorem Pending.append {read read' : Text} (pending : twins.Pending done read read') (mark : Mark) :
    twins.Pending (done ++ [mark]) ((mark.filled twins.left).reverse ++ read)
      ((mark.filled twins.right).reverse ++ read') := by
  obtain ⟨part, ⟨earlier, rfl⟩, left_eq, right_eq⟩ := pending
  refine ⟨part ++ [mark], ⟨earlier, by simp⟩, ?_, ?_⟩
  · simp [left_eq]
  · simp [right_eq]

theorem Pending.text {read read' : Text} (pending : twins.Pending done read read') (front : done <+: twins.marks) :
    twins.SameText read.reverse read'.reverse := by
  obtain ⟨part, suffix, left_eq, right_eq⟩ := pending
  exact ⟨part, suffix.isInfix.trans front.isInfix, left_eq, right_eq⟩

theorem tokensOfItems_append (front back : List Node) :
    tokensOfItems (front ++ back) = tokensOfItems front ++ tokensOfItems back := by
  induction front with
  | nil => rfl
  | cons item front ih => simp [tokensOfItems, ih]

theorem tokensOfMembers_append (front back : List (Text × Node)) :
    tokensOfMembers (front ++ back) = tokensOfMembers front ++ tokensOfMembers back := by
  induction front with
  | nil => rfl
  | cons member front ih => simp [tokensOfMembers, ih]

theorem SameItems.nil : twins.SameItems [] [] := List.Forall₂.nil

theorem SameMembers.nil : twins.SameMembers [] [] := List.Forall₂.nil

theorem SameItems.cons {items others : List Node} {node node' : Node} (inner : twins.SameItems items others)
    (same : twins.SameNode node node') : twins.SameItems (node :: items) (node' :: others) := by
  simp only [SameItems, List.reverse_cons, tokensOfItems_append]
  apply List.rel_append inner
  simpa [tokensOfItems, SameNode, SameTokens] using same

theorem SameMembers.cons {members others : List (Text × Node)} {key key' : Text} {node node' : Node}
    (inner : twins.SameMembers members others) (name : twins.SameText key key') (same : twins.SameNode node node') :
    twins.SameMembers ((key, node) :: members) ((key', node') :: others) := by
  simp only [SameMembers, List.reverse_cons, tokensOfMembers_append]
  apply List.rel_append inner
  simpa [tokensOfMembers] using List.Forall₂.cons (SameToken.key name) same

/-- The value of a number is made of the marks of the number. -/
theorem Pending.node {read read' : Text} (part : NumberPart) (pending : twins.Pending done read read')
    (front : done <+: twins.marks) : twins.SameNode (part.node read) (part.node read') := by
  have integer : twins.SameNode (.integer read.reverse) (.integer read'.reverse) :=
    List.Forall₂.cons (.integer (pending.text front)) .nil
  have nothing : twins.SameNode .other .other := List.Forall₂.nil
  cases part with
  | zero | integer => exact integer
  | minus | point | fraction | exponentMark | exponentSign | exponent => exact nothing

/-- Both readers begin the same value. -/
theorem beginValue (same : twins.SameStack stack stack') (character : Char) :
    twins.SameOutcome before (done ++ [.character character]) (Document.beginValue stack character)
      (Document.beginValue stack' character) := by
  have length : stack.length = stack'.length := List.Forall₂.length_eq same
  have number {part : NumberPart} : twins.SameOutcome before (done ++ [.character character])
      (.ok ⟨stack, .number part [character]⟩) (.ok ⟨stack', .number part [character]⟩) :=
    .next same (.number (.first character))
  have word {letter : Char} {later : Text} : twins.SameOutcome before (done ++ [.character character])
      (.ok ⟨stack, .word [character] letter later⟩) (.ok ⟨stack', .word [character] letter later⟩) :=
    .next same (.word (List.suffix_append _ _))
  unfold Document.beginValue
  rw [length]
  refine .choose (fun _ => .choose (fun _ => .next same .firstKey) fun _ => .refused) fun _ => ?_
  refine .choose (fun _ => .choose (fun _ => .next same .firstItem) fun _ => .refused) fun _ => ?_
  refine .choose (fun _ => .next same .string) fun _ => ?_
  refine .choose (fun _ => number) fun _ => ?_
  refine .choose (fun _ => number) fun _ => ?_
  refine .choose (fun _ => number) fun _ => ?_
  refine .choose (fun _ => word) fun _ => ?_
  refine .choose (fun _ => word) fun _ => ?_
  exact .choose (fun _ => word) fun _ => .refused

/-- Both readers begin the same key. -/
theorem beginKey {members others : List (Text × Node)} (same : twins.SameStack stack stack')
    (inner : twins.SameMembers members others) (character : Char) :
    twins.SameOutcome before (done ++ [.character character]) (Document.beginKey stack members character)
      (Document.beginKey stack' others character) := by
  unfold Document.beginKey
  refine .choose (fun _ => .next same (.key inner)) fun _ => ?_
  refine .choose (fun _ => .next same (.quotedKey inner ⟨[], List.nil_suffix, rfl, rfl⟩)) fun _ => ?_
  exact .choose (fun _ => .next same (.bareKey inner (.first character))) fun _ => .refused

/-- Both readers go on in the same way after a key. -/
theorem afterKey {members others : List (Text × Node)} {key key' : Text} (same : twins.SameStack stack stack')
    (inner : twins.SameMembers members others) (name : twins.SameText key key') (character : Char) :
    twins.SameOutcome before after (Document.afterKey stack members key character)
      (Document.afterKey stack' others key' character) := by
  unfold Document.afterKey
  refine .choose (fun _ => .next same (.colon inner name)) fun _ => ?_
  exact .choose (fun _ => .next (.cons (.object inner name) same) .value) fun _ => .refused

theorem followerOf_eq (same : twins.SameStack stack stack') : followerOf stack = followerOf stack' := by
  cases same with
  | nil => rfl
  | cons frame _ => cases frame <;> rfl

/-- Both readers go on in the same way after a value. -/
theorem afterValue {node node' : Node} (same : twins.SameStack stack stack') (inner : twins.SameNode node node')
    (character : Char) :
    twins.SameOutcome before after (Document.afterValue stack node character)
      (Document.afterValue stack' node' character) := by
  have follower := followerOf_eq same
  unfold Document.afterValue
  refine .choose (fun _ => .next same (.complete inner)) fun _ => ?_
  cases same with
  | nil => exact .refused
  | cons frame outer =>
    cases frame with
    | object earlier name =>
      have members := earlier.cons name inner
      refine .choose (fun _ => .next outer (.key members)) fun _ => ?_
      exact .choose (fun _ => .next outer (.complete members)) fun _ => .refused
    | array earlier =>
      have items := earlier.cons inner
      refine .choose (fun _ => .next (.cons (.array items) outer) .value) fun _ => ?_
      exact .choose (fun _ => .next outer (.complete items)) fun _ => .refused

/-- **One literal character takes both readers to the same place.** -/
theorem Same.step {state other : State} (same : twins.Same done state other) (character : Char)
    (front : done <+: twins.marks) :
    twins.SameOutcome done (done ++ [.character character]) (Document.step state character)
      (Document.step other character) := by
  obtain ⟨stack, mode⟩ := state
  obtain ⟨stack', mode'⟩ := other
  obtain ⟨sameStack, sameMode⟩ := same
  cases sameMode with
  | value => exact .choose (fun _ => .next sameStack .value) fun _ => beginValue sameStack character
  | firstItem =>
    refine .choose (fun _ => .next sameStack .firstItem) fun _ => ?_
    refine .choose (fun _ => .next sameStack (.complete List.Forall₂.nil)) fun _ => ?_
    exact beginValue (.cons (.array .nil) sameStack) character
  | firstKey =>
    refine .choose (fun _ => .next sameStack .firstKey) fun _ => ?_
    refine .choose (fun _ => .next sameStack (.complete List.Forall₂.nil)) fun _ => ?_
    exact beginKey sameStack .nil character
  | key inner => exact beginKey sameStack inner character
  | bareKey inner pending =>
    refine .choose (fun _ => .next sameStack (.bareKey inner (pending.append (.character character)))) fun _ => ?_
    exact afterKey sameStack inner (pending.text front) character
  | @quotedKey _ _ _ _ quoted inner pending =>
    simp only [Document.step, bind, Except.bind]
    cases stepped : stepQuoted quoted character with
    | error stop => exact .error (by simp [(isAt_of_stepQuoted stepped).1])
    | ok outcome =>
      cases outcome with
      | none => exact .next sameStack (.colon inner (pending.text front))
      | some next => exact .next sameStack (.quotedKey inner (pending.append (.character character)))
  | colon inner name => exact afterKey sameStack inner name character
  | @string quoted =>
    simp only [Document.step, bind, Except.bind]
    cases stepped : stepQuoted quoted character with
    | error stop => exact .error (by simp [(isAt_of_stepQuoted stepped).1])
    | ok outcome =>
      cases outcome with
      | none => exact .next sameStack (.complete List.Forall₂.nil)
      | some next => exact .next sameStack .string
  | @number part _ _ pending =>
    simp only [Document.step, bind, Except.bind]
    cases stepped : stepNumber part character with
    | error stop => exact .error (by simp [(isAt_of_stepNumber stepped).1])
    | ok outcome =>
      cases outcome with
      | none => exact afterValue sameStack (pending.node part front) character
      | some next => exact .next sameStack (.number (pending.append (.character character)))
  | @word read later next literal =>
    refine .choose (fun isNext => ?_) fun _ => .error literal
    cases later with
    | nil => exact .next sameStack (.complete List.Forall₂.nil)
    | cons letter later =>
      obtain ⟨earlier, rfl⟩ := literal
      exact .next sameStack (.word ⟨earlier, by simp⟩)
  | complete inner => exact afterValue sameStack inner character

/-- **A code takes both readers to the same place**, or is refused by both at its first digit. -/
theorem Same.numeral {state other : State} (same : twins.Same done state other) (found : Occurrence) :
    twins.SameOutcome done (done ++ [.occurrence found]) (state.numeral (twins.left found))
      (other.numeral (twins.right found)) := by
  obtain ⟨stack, mode⟩ := state
  obtain ⟨stack', mode'⟩ := other
  obtain ⟨sameStack, sameMode⟩ := same
  have start : twins.Pending (done ++ [.occurrence found]) (twins.left found).reverse (twins.right found).reverse :=
    ⟨[.occurrence found], List.suffix_append _ _, by simp [Mark.filled], by simp [Mark.filled]⟩
  cases sameMode with
  | value => exact .next sameStack (.number start)
  | firstItem => exact .next (.cons (.array .nil) sameStack) (.number start)
  | firstKey => exact .next sameStack (.bareKey .nil start)
  | key inner => exact .next sameStack (.bareKey inner start)
  | bareKey inner pending => exact .next sameStack (.bareKey inner (pending.append (.occurrence found)))
  | quotedKey inner pending =>
    exact .choose (fun _ => .refused) fun _ =>
      .next sameStack (.quotedKey inner (pending.append (.occurrence found)))
  | string => exact .choose (fun _ => .refused) fun _ => .next sameStack .string
  | colon | complete =>
    simp only [State.numeral, followerOf_eq sameStack]
    exact .refused
  | @number part _ _ pending =>
    simp only [State.numeral, followerOf_eq sameStack]
    cases part.withDigits with
    | none => exact .refused
    | some next => exact .next sameStack (.number (pending.append (.occurrence found)))
  | word literal => exact .error literal

/-- Both readings end in the same way, or fail at the same mark. -/
def SameError (twins : Twins) (error other : SyntaxError) : Prop :=
  ∃ front back, twins.marks = front ++ back ∧
    error.position = Text.size (filledOf twins.left front) ∧
    other.position = Text.size (filledOf twins.right front) ∧
    error.found = (filledOf twins.left back).head? ∧ other.found = (filledOf twins.right back).head? ∧
    error.expected = other.expected

/-- A stop between two marks is an error there, or at the beginning of the word before it. -/
theorem SameError.of_stop {stop : Stop} {rest : List Mark} (literal : stop.back.map .character <:+ done)
    (division : twins.marks = done ++ rest) :
    twins.SameError (stop.toSyntaxError (Text.size (filledOf twins.left done)) (filledOf twins.left rest))
      (stop.toSyntaxError (Text.size (filledOf twins.right done)) (filledOf twins.right rest)) := by
  obtain ⟨front, rfl⟩ := literal
  refine ⟨front, stop.back.map .character ++ rest, by simp [division], ?_, ?_, ?_, ?_, rfl⟩
  · simp [Stop.toSyntaxError]
  · simp [Stop.toSyntaxError]
  · simp [Stop.toSyntaxError]
  · simp [Stop.toSyntaxError]

/-- Two outcomes of reading: both fail in the same place, or both succeed and are related. -/
inductive SameResult {α : Type} (twins : Twins) (related : α → α → Prop) :
    Except SyntaxError α → Except SyntaxError α → Prop where
  | ok {result other : α} (same : related result other) : SameResult twins related (.ok result) (.ok other)
  | error {failure other : SyntaxError} (same : twins.SameError failure other) :
      SameResult twins related (.error failure) (.error other)

/-- **Both readers keep step through all marks**, or fail at the same one. -/
theorem Same.run {state other : State} {rest : List Mark} (numeric : twins.Numeric)
    (same : twins.Same done state other) (taken : Taken state (filledOf twins.left done))
    (taken' : Taken other (filledOf twins.right done)) (division : twins.marks = done ++ rest) :
    SameResult twins (twins.Same twins.marks)
      (Document.run state (Text.size (filledOf twins.left done)) (filledOf twins.left rest))
      (Document.run other (Text.size (filledOf twins.right done)) (filledOf twins.right rest)) := by
  induction rest generalizing done state other with
  | nil =>
    rw [List.append_nil] at division
    exact .ok (division ▸ same)
  | cons mark rest ih =>
    have division' : twins.marks = (done ++ [mark]) ++ rest := by simp [division]
    have front : done <+: twins.marks := ⟨mark :: rest, division.symm⟩
    cases mark with
    | character character =>
      have outcome := same.step character front
      simp only [filledOf_cons, Mark.filled, List.singleton_append, Document.run]
      cases stepped : Document.step state character with
      | error stop =>
        rw [stepped] at outcome
        generalize stepped' : Document.step other character = result at outcome
        cases outcome with
        | error literal => simpa [Mark.filled] using SameResult.error (.of_stop literal division)
      | ok next =>
        rw [stepped] at outcome
        generalize stepped' : Document.step other character = result at outcome
        cases outcome with
        | @ok _ next' same' =>
          have later := ih same' (by simpa [Mark.filled] using taken.step stepped)
            (by simpa [Mark.filled] using taken'.step stepped') division'
          simpa [Mark.filled] using later
    | occurrence found =>
      have member : .occurrence found ∈ twins.marks := by simp [division]
      have isNumeral := numeric.left found member
      have isNumeral' := numeric.right found member
      have outcome := same.numeral found
      simp only [filledOf_cons, Mark.filled]
      cases read : state.numeral (twins.left found) with
      | error stop =>
        rw [read] at outcome
        generalize read' : other.numeral (twins.right found) = result at outcome
        cases outcome with
        | error literal =>
          obtain ⟨first, digits, digits_eq, _⟩ := isNumeral.cons
          obtain ⟨first', digits', digits_eq', _⟩ := isNumeral'.cons
          have failed : SameResult twins (twins.Same twins.marks) (.error _) (.error _) :=
            .error (.of_stop literal division)
          rw [digits_eq] at isNumeral read
          rw [digits_eq'] at isNumeral' read'
          have refused := step_of_numeral isNumeral taken.usual read
          have refused' := step_of_numeral isNumeral' taken'.usual read'
          simpa [digits_eq, digits_eq', Document.run, refused, refused', Mark.filled] using failed
      | ok next =>
        rw [read] at outcome
        generalize read' : other.numeral (twins.right found) = result at outcome
        cases outcome with
        | @ok _ next' same' =>
          have reads := reads_of_numeral isNumeral taken.usual read
          have reads' := reads_of_numeral isNumeral' taken'.usual read'
          rw [run_append (reads _), run_append (reads' _)]
          have later := ih same' (by simpa [Mark.filled] using taken.run (reads 0))
            (by simpa [Mark.filled] using taken'.run (reads' 0)) division'
          simpa [Mark.filled] using later

/-- Both readers end in the same way. -/
theorem Same.finish {state other : State} (same : twins.Same done state other) (front : done <+: twins.marks) :
    (∃ stop, Document.finish state = .error stop ∧ Document.finish other = .error stop ∧
      stop.back.map .character <:+ done) ∨
    ∃ root root', Document.finish state = .ok root ∧ Document.finish other = .ok root' ∧
      twins.SameNode root root' := by
  obtain ⟨stack, mode⟩ := state
  obtain ⟨stack', mode'⟩ := other
  obtain ⟨sameStack, sameMode⟩ := same
  have value {node node' : Node} (inner : twins.SameNode node node') :
      (∃ stop, finishValue stack node = .error stop ∧ finishValue stack' node' = .error stop ∧
        stop.back.map .character <:+ done) ∨
      ∃ root root', finishValue stack node = .ok root ∧ finishValue stack' node' = .ok root' ∧
        twins.SameNode root root' := by
    have follower := followerOf_eq sameStack
    cases sameStack with
    | nil => exact .inr ⟨node, node', rfl, rfl, inner⟩
    | cons _ _ =>
      refine .inl ⟨_, rfl, ?_, List.nil_suffix⟩
      rw [follower]
      rfl
  cases sameMode with
  | value | firstItem | firstKey | key | bareKey | quotedKey | colon | string =>
    exact .inl ⟨_, rfl, rfl, List.nil_suffix⟩
  | word literal => exact .inl ⟨_, rfl, rfl, literal⟩
  | @number part _ _ pending =>
    simp only [Document.finish]
    cases part.isComplete with
    | true => exact value (pending.node part front)
    | false => exact .inl ⟨_, rfl, rfl, List.nil_suffix⟩
  | complete inner => exact value inner

/-- **Both texts are documents with the same shape and the same tokens**, or
both stop being documents at the same mark. -/
theorem parse (numeric : twins.Numeric) :
    SameResult twins twins.SameNode (Document.parse (filledOf twins.left twins.marks))
      (Document.parse (filledOf twins.right twins.marks)) := by
  have start : twins.Same [] State.initial State.initial := ⟨.nil, .value⟩
  have begin : Taken State.initial [] := (Reached.value .root .nil).taken
  have ran := start.run numeric begin begin rfl
  simp only [filledOf_nil, Text.size_nil] at ran
  simp only [Document.parse, bind, Except.bind]
  generalize Document.run State.initial 0 (filledOf twins.left twins.marks) = result at ran
  generalize Document.run State.initial 0 (filledOf twins.right twins.marks) = result' at ran
  cases ran with
  | error same => exact .error same
  | ok same =>
    rcases same.finish (List.prefix_refl _) with
      ⟨stop, ended, ended', literal⟩ | ⟨root, root', ended, ended', sameRoot⟩
    · simp only [ended, ended']
      exact .error (by simpa using SameError.of_stop literal (List.append_nil twins.marks).symm)
    · simp only [ended, ended']
      exact .ok sameRoot

end Twins
end Stencil
