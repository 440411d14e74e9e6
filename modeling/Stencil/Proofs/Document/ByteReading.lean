import Stencil.Proofs.Document.ByteTokens

/-! The reader in bytes comes to the same end with every text as the reader of
characters, and nothing goes wrong on its way. Values are followed from the
containers that they are in: the number of levels that may still be opened
and the containers that are open always add up to the limit. -/
namespace Stencil.Document.ByteReader

variable {text front rest : Text} {stack : List Frame} {members : List (Text × Node)} {items : List Node}
  {readValue : Nat → Course (Node × Nat)}

/-- Values in the given containers are read as the reader of characters reads them. -/
def ReadsValues (text : Text) (readValue : Nat → Course (Node × Nat)) (stack : List Frame) : Prop :=
  ∀ front rest, Passes text ⟨stack, .value⟩ front rest →
    (readValue (Text.size front)).Sound text (Text.size front) (Completes text stack)

/-- How a turn in a container ends that is in the given containers. Between the turns, what
was read so far determines the state of the reader of characters. -/
def ContainerTurnEnds {σ : Type} (text : Text) (stack : List Frame) (between : σ → State) :
    (finger : Nat) → Turn σ Node × Nat → Nat → Prop :=
  Turn.Ends text
    (fun sofar finger => ∃ front rest, Passes text (between sofar) front rest ∧ finger = Text.size front)
    (Completes text stack)

theorem step_complete_blank {node : Node} {character : Char} (blank : Text.isBlank character = true) :
    step ⟨stack, .complete node⟩ character = .ok ⟨stack, .complete node⟩ := if_pos blank

/-- After a member or an item, a container goes on or is closed. -/
theorem follow_sound {σ : Type} {between : σ → State} {sofar : σ} {inner : List Frame} {node closed : Node}
    {closing : Char} {expected : Expectation} {begun : Nat} (upTo : begun ≤ Text.size front)
    (passes : Passes text ⟨inner, .complete node⟩ front rest) (ascii : closing.toNat < 128)
    (goesOn : step ⟨inner, .complete node⟩ ',' = .ok (between sofar))
    (closes : step ⟨inner, .complete node⟩ closing = .ok ⟨stack, .complete closed⟩)
    (atEnd : finish ⟨inner, .complete node⟩ = .error ⟨expected, []⟩)
    (refuses : ∀ character, Text.isBlank character = false → character ≠ ',' → character ≠ closing →
      step ⟨inner, .complete node⟩ character = .error ⟨expected, []⟩) :
    (follow text closing expected sofar closed (Text.size front)).Sound text (Text.size front)
      (ContainerTurnEnds text stack between begun) := by
  apply (blanks_sound passes fun _ => step_complete_blank).andThen
  rintro _ _ onward ⟨front, rest, ⟨passes, noBlank⟩, rfl, rfl⟩
  apply Course.Sound.lookForThen (by decide) passes.split
  · rintro later rfl
    have after := passes.step goesOn
    have further := size_lt_snoc front ','
    exact .done ⟨rfl, by omega, after.inText, _, later, after, rfl⟩
  intro noComma
  apply Course.Sound.lookForThen ascii passes.split
  · rintro later rfl
    exact .done ⟨_, later, passes.step closes, rfl, rfl⟩
  · intro noClosing
    apply unexpected_sound passes
    apply stopsAt_of_head (fun _ => atEnd)
    intro character isHead
    exact refuses character (noBlank character isHead) (noComma character isHead) (noClosing character isHead)

/-- **A turn in an object reads a member.** -/
theorem memberTurn_sound (reads : ∀ frame, ReadsValues text readValue (frame :: stack))
    (passes : Passes text ⟨stack, .key members.reverse⟩ front rest) :
    (memberTurn text readValue members (Text.size front)).Sound text (Text.size front)
      (ContainerTurnEnds text stack (fun members => ⟨stack, .key members.reverse⟩) (Text.size front)) := by
  apply (blanks_sound passes (AwaitsKey.key stack members.reverse).blank).andThen
  rintro _ _ toKey ⟨_, _, ⟨passes, noBlank⟩, rfl, rfl⟩
  apply (key_sound passes noBlank).andThen
  rintro ⟨key, _⟩ _ behindKey ⟨_, _, passes, rfl, rfl⟩
  apply (colon_sound passes).andThen
  rintro _ _ toValue ⟨_, _, passes, rfl, rfl⟩
  apply (reads _ _ _ passes).andThen
  rintro ⟨value, _⟩ _ behindValue ⟨_, _, passes, rfl, rfl⟩
  apply follow_sound _ passes (by decide) _ _ rfl
  · intro character noBlank noComma noClosing
    simp [step, afterValue, followerOf, noBlank, noComma, noClosing]
  · exact toKey.trans (behindKey.trans (toValue.trans behindValue))
  · rw [List.reverse_concat]
    rfl
  · rw [← List.reverse_reverse (members ++ _), List.reverse_concat]
    rfl

/-- **A turn in an array reads an item.** -/
theorem itemTurn_sound (reads : ∀ frame, ReadsValues text readValue (frame :: stack))
    (passes : Passes text ⟨.array items.reverse :: stack, .value⟩ front rest) :
    (itemTurn text readValue items (Text.size front)).Sound text (Text.size front)
      (ContainerTurnEnds text stack (fun items => ⟨.array items.reverse :: stack, .value⟩) (Text.size front)) := by
  apply (reads _ _ _ passes).andThen
  rintro ⟨item, _⟩ _ onward ⟨_, _, passes, rfl, rfl⟩
  apply follow_sound onward passes (by decide) _ _ rfl
  · intro character noBlank noComma noClosing
    simp [step, afterValue, followerOf, noBlank, noComma, noClosing]
  · rw [List.reverse_concat]
    rfl
  · rw [← List.reverse_reverse (items ++ _), List.reverse_concat]
    rfl

/-- An object is read to its closing brace. -/
theorem object_sound (reads : ∀ frame, ReadsValues text readValue (frame :: stack))
    (passes : Passes text ⟨stack, .value⟩ front ('\x7b' :: rest)) (room : stack.length < depthLimit) :
    (object text readValue (Text.size front)).Sound text (Text.size front) (Completes text stack) := by
  have opens : step ⟨stack, .value⟩ '\x7b' = .ok ⟨stack, .firstKey⟩ := if_pos room
  apply Course.Sound.takeThen passes.split (by decide)
  apply (blanks_sound (passes.step opens) (AwaitsKey.firstKey stack).blank).andThen
  rintro _ _ _ ⟨_, _, ⟨passes, noBlank⟩, rfl, rfl⟩
  apply Course.Sound.lookForThen (by decide) passes.split
  · rintro later rfl
    exact .done ⟨_, later, passes.step rfl, rfl, rfl⟩
  · intro noClosing
    apply Course.Sound.loop fun members finger =>
      ∃ front rest, Passes text ⟨stack, .key members.reverse⟩ front rest ∧ finger = Text.size front
    · rintro members _ ⟨_, _, passes, rfl⟩
      exact memberTurn_sound reads passes
    · refine ⟨_, _, passes.exchange rfl ?_, rfl⟩
      intro character isHead
      exact (AwaitsKey.firstKey stack).step (noBlank character isHead) (noClosing character isHead)

/-- An array is read to its closing bracket. -/
theorem array_sound (reads : ∀ frame, ReadsValues text readValue (frame :: stack))
    (passes : Passes text ⟨stack, .value⟩ front ('[' :: rest)) (room : stack.length < depthLimit) :
    (array text readValue (Text.size front)).Sound text (Text.size front) (Completes text stack) := by
  have opens : step ⟨stack, .value⟩ '[' = .ok ⟨stack, .firstItem⟩ := if_pos room
  apply Course.Sound.takeThen passes.split (by decide)
  apply (blanks_sound (passes.step opens) (AwaitsValue.firstItem stack).blank).andThen
  rintro _ _ _ ⟨_, _, ⟨passes, noBlank⟩, rfl, rfl⟩
  apply Course.Sound.lookForThen (by decide) passes.split
  · rintro later rfl
    exact .done ⟨_, later, passes.step rfl, rfl, rfl⟩
  · intro noClosing
    apply Course.Sound.loop fun items finger =>
      ∃ front rest, Passes text ⟨.array items.reverse :: stack, .value⟩ front rest ∧ finger = Text.size front
    · rintro items _ ⟨_, _, passes, rfl⟩
      exact itemTurn_sound reads passes
    · refine ⟨_, _, passes.exchange rfl ?_, rfl⟩
      intro character isHead
      have other := noClosing character isHead
      rw [(AwaitsValue.firstItem stack).step (noBlank character isHead) other]
      exact ((AwaitsValue.value _).step (noBlank character isHead) other).symm

/-- Where an object or an array begins and no level may be opened any more, the text is rejected. -/
theorem tooDeep_iff {depth : Nat} (split : text = front ++ rest) :
    ((sees text (Text.size front) (is '\x7b') || sees text (Text.size front) (is '[')) &&
        decide (depth = 0)) = true ↔
      (∃ character ∈ rest.head?, character = '\x7b' ∨ character = '[') ∧ depth = 0 := by
  rw [sees_eq (Agrees.is (by decide)) split, sees_eq (Agrees.is (by decide)) split]
  cases rest with
  | nil => simp
  | cons character later => simp

/-- Inside of as many containers as may be open, no other one begins. -/
theorem tooDeep_sound {α : Type} {post : α → Nat → Prop} {start : Nat} {character : Char}
    (passes : Passes text ⟨stack, .value⟩ front rest) (full : stack.length = depthLimit)
    (isHead : character ∈ rest.head?) (opens : character = '\x7b' ∨ character = '[') :
    (unexpected text .shallowerData (Text.size front) : Course α).Sound text start post := by
  apply unexpected_sound passes
  apply stopsAt_of_head
  · rintro rfl
    cases isHead
  · intro other isHead'
    obtain rfl := Option.mem_unique isHead isHead'
    have noRoom : ¬ stack.length < depthLimit := by omega
    rcases opens with rfl | rfl <;> exact if_neg noRoom

/-- A character with which no value begins. -/
theorem beginValue_other {character : Char} (noBrace : character ≠ '\x7b') (noBracket : character ≠ '[')
    (noQuote : character ≠ '"') (noMinus : character ≠ '-') (noDigit : character.isDigit = false)
    (noLetter : character ≠ 't' ∧ character ≠ 'f' ∧ character ≠ 'n') :
    beginValue stack character = .error ⟨.value, []⟩ := by
  have noZero : character ≠ '0' := by
    rintro rfl
    cases noDigit
  simp [beginValue, noBrace, noBracket, noQuote, noMinus, noZero, noDigit, noLetter]

/-- The first character of a value tells what is read, given how the values in it are read. -/
theorem value_sound_of {depth level : Nat}
    (inner : ∀ smaller, depth = smaller + 1 → ∀ frame,
      ReadsValues text (value text smaller (level + 1)) (frame :: stack))
    (counted : stack.length + depth = depthLimit) (nested : level = stack.length + 1) :
    ReadsValues text (value text depth level) stack := by
  intro front rest passes
  rw [value]
  apply Course.Sound.callThen (by omega)
  apply (blanks_sound passes (AwaitsValue.value stack).blank).andThen
  rintro _ _ _ ⟨front, rest, ⟨passes, noBlank⟩, rfl, rfl⟩
  apply Course.Sound.choose
  · intro tooDeep
    obtain ⟨⟨character, isHead, opens⟩, rfl⟩ := (tooDeep_iff passes.split).mp tooDeep
    exact tooDeep_sound passes counted isHead opens
  intro shallow
  have deeper {character : Char} (isHead : character ∈ rest.head?) (opens : character = '\x7b' ∨ character = '[') :
      ∃ smaller, depth = smaller + 1 := by
    apply Nat.exists_eq_succ_of_ne_zero
    intro none
    exact shallow ((tooDeep_iff passes.split).mpr ⟨⟨character, isHead, opens⟩, none⟩)
  apply Course.Sound.lookFor (by decide) passes.split
  · rintro later rfl
    obtain ⟨smaller, rfl⟩ := deeper rfl (.inl rfl)
    exact object_sound (inner smaller rfl) passes (by omega)
  intro noBrace
  apply Course.Sound.lookFor (by decide) passes.split
  · rintro later rfl
    obtain ⟨smaller, rfl⟩ := deeper rfl (.inr rfl)
    exact array_sound (inner smaller rfl) passes (by omega)
  intro noBracket
  apply Course.Sound.lookFor (by decide) passes.split
  · rintro later rfl
    apply (string_sound (readsLiteral_string stack) passes rfl).andThen
    rintro ⟨_, _⟩ _ _ ⟨_, rest, passes, rfl, rfl⟩
    exact .done ⟨_, rest, passes, rfl, rfl⟩
  intro noQuote
  apply Course.Sound.look ((Agrees.is (by decide)).either Agrees.isDigit) passes.split
  · rintro first later rfl starts
    apply number_sound passes
    rwa [Bool.or_eq_true, decide_eq_true_eq] at starts
  intro noNumber
  apply Course.Sound.lookFor (by decide) passes.split
  · rintro later rfl
    exact word_sound passes rfl
  intro noTrue
  apply Course.Sound.lookFor (by decide) passes.split
  · rintro later rfl
    exact word_sound passes rfl
  intro noFalse
  apply Course.Sound.lookFor (by decide) passes.split
  · rintro later rfl
    exact word_sound passes rfl
  intro noNull
  apply unexpected_sound passes
  apply stopsAt_of_head (fun _ => rfl)
  intro character isHead
  obtain ⟨noMinus, noDigit⟩ := Bool.or_eq_false_iff.mp (noNumber character isHead)
  have begins : step ⟨stack, .value⟩ character = beginValue stack character :=
    if_neg (Bool.eq_false_iff.mp (noBlank character isHead))
  rw [begins]
  exact beginValue_other (noBrace character isHead) (noBracket character isHead) (noQuote character isHead)
    (of_decide_eq_false noMinus) noDigit
    ⟨noTrue character isHead, noFalse character isHead, noNull character isHead⟩

/-- **A value is read as the reader of characters reads it.** -/
theorem value_sound {depth level : Nat} (counted : stack.length + depth = depthLimit)
    (nested : level = stack.length + 1) : ReadsValues text (value text depth level) stack := by
  induction depth generalizing stack level with
  | zero => exact value_sound_of nofun counted nested
  | succ depth ih =>
    apply value_sound_of _ counted nested
    rintro _ ⟨⟩ frame
    apply ih
    · rw [List.length_cons]
      omega
    · rw [List.length_cons, nested]

/-- **A text is read as the reader of characters reads it.** -/
theorem parse_sound (text : Text) :
    (parse text).Sound text 0 fun root _ => Document.parse text = .ok root := by
  have begins : ReadsValues text (value text depthLimit 1) [] := value_sound rfl rfl
  apply (begins [] text (Passes.initial text)).andThen
  rintro ⟨root, _⟩ _ _ ⟨_, _, passes, rfl, rfl⟩
  apply (blanks_sound passes fun _ => step_complete_blank).andThen
  rintro _ _ _ ⟨front, rest, ⟨passes, noBlank⟩, rfl, rfl⟩
  have split : Text.size text = Text.size front + Text.size rest := by
    rw [passes.split, Text.size_append]
  apply Course.Sound.choose
  · intro more
    apply unexpected_sound passes
    apply stopsAt_of_head
    · rintro rfl
      rw [Text.size_nil] at split
      omega
    · intro character isHead
      simp [step, afterValue, followerOf, noBlank character isHead]
  · intro ended
    obtain rfl : rest = [] := Text.size_eq_zero_iff.mp (by omega)
    exact .done passes.resumes

/-- **The reader in bytes reads every text safely.** It comes to the same end as the
reader of characters, so it never slices the text where it may not, never counts
the levels below zero, and never stays in a loop; when it halts, it rejects the text
between two of its characters. On the way, the finger only moves on and stays in the
text, every slice begins and ends between characters, and there are never more than
129 values being read inside of one another. -/
theorem reads_safely (text : Text) :
    (parse text).outcome = (Document.parse text).mapError Halt.rejected ∧
      (∀ halt, (parse text).outcome = .error halt →
        ∃ error, halt = .rejected error ∧ Text.isBoundary text.bytes error.position = true) ∧
      (fingersOf (parse text).events).Pairwise (· < ·) ∧
      (∀ finger, .moved finger ∈ (parse text).events → finger ≤ Text.size text) ∧
      (∀ start stop, .sliced start stop ∈ (parse text).events → IsSlice text start stop) ∧
      ∀ level, .called level ∈ (parse text).events → level ≤ 129 := by
  obtain ⟨stop, travels, reached⟩ := parse_sound text
  refine ⟨?_, ?_, travels.ascending.1, fun _ => travels.isSafe, fun _ _ => travels.isSafe, fun _ => travels.isSafe⟩
  · cases ends : (parse text).outcome with
    | ok root =>
      simp only [ends] at reached
      rw [reached]
      rfl
    | error halt =>
      simp only [ends] at reached
      obtain ⟨error, rfl, fails⟩ := reached
      rw [fails]
      rfl
  · intro halt ends
    simp only [ends] at reached
    obtain ⟨error, rfl, fails⟩ := reached
    obtain ⟨front, back, _, split, _, place, _⟩ := faultAt_of_parse fails
    refine ⟨error, rfl, ?_⟩
    rw [place, split]
    exact Text.isBoundary_append front back

end Stencil.Document.ByteReader
