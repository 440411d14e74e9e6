import Stencil.Proofs.Document.FirstFault

/-! Reading on from the middle of a text. When the reader comes to some state
behind the front of a text, what it makes of the whole text is what it makes of
the rest from there. A state may then be exchanged for another one that the rest
means the same in. -/
namespace Stencil.Document

variable {text front part rest : Text} {state other next : State} {stack : List Frame} {character : Char}

/-- Characters that leave the reader where it is. -/
theorem Reads.all {isMember : Char → Bool}
    (keeps : ∀ character, isMember character = true → step state character = .ok state)
    (members : ∀ character ∈ part, isMember character = true) : Reads state part state := by
  induction part with
  | nil => exact .nil state
  | cons character part ih =>
    have later := ih fun other member => members other (List.mem_cons_of_mem _ member)
    exact .cons (keeps character (members character List.mem_cons_self)) later

/-- What becomes of a text whose rest, from a byte offset on, is still to be read. -/
def resume (state : State) (position : Nat) (rest : Text) : Except SyntaxError Node := do
  let last ← run state position rest
  match finish last with
  | .ok root => .ok root
  | .error stop => .error (stop.toSyntaxError (position + Text.size rest) [])

theorem resume_append {position : Nat} (reads : Reads state part next) (rest : Text) :
    resume state position (part ++ rest) = resume next (position + Text.size part) rest := by
  simp only [resume, run_append (reads position), Text.size_append, Nat.add_assoc]

/-- A text comes to nothing where the reader stops. -/
theorem resume_of_stopsAt {position : Nat} {stop : Stop} (stops : state.StopsAt rest stop) :
    resume state position rest = .error (stop.toSyntaxError position rest) := by
  cases rest with
  | nil =>
    have refused : finish state = .error stop := stops
    simp [resume, run, refused, bind, Except.bind]
  | cons character rest =>
    have refused : step state character = .error stop := stops
    simp [resume, run, refused, bind, Except.bind]

theorem stopsAt_of_head {stop : Stop} (atEnd : rest = [] → finish state = .error stop)
    (refuses : ∀ character ∈ rest.head?, step state character = .error stop) : state.StopsAt rest stop := by
  cases rest with
  | nil => exact atEnd rfl
  | cons character rest => exact refuses character rfl

/-- A text is divided in two, and what the reader makes of it is what it makes
of the second part from a state on. -/
structure Passes (text : Text) (state : State) (front rest : Text) : Prop where
  split : text = front ++ rest
  resumes : parse text = resume state (Text.size front) rest

namespace Passes

theorem initial (text : Text) : Passes text State.initial [] text := by
  refine ⟨rfl, ?_⟩
  simp only [resume, Text.size_nil, Nat.zero_add]
  rfl

/-- The reader goes on. -/
theorem reads (passes : Passes text state front (part ++ rest)) (reads : Reads state part next) :
    Passes text next (front ++ part) rest := by
  refine ⟨by rw [passes.split, List.append_assoc], ?_⟩
  rw [passes.resumes, resume_append reads, Text.size_append]

theorem step (passes : Passes text state front (character :: rest))
    (taken : Document.step state character = .ok next) : Passes text next (front ++ [character]) rest :=
  Passes.reads passes (.one taken)

/-- The reader might as well be in another state in which the rest means the same. -/
theorem exchange (passes : Passes text state front rest) (atEnd : finish state = finish other)
    (alike : ∀ character ∈ rest.head?, Document.step state character = Document.step other character) :
    Passes text other front rest := by
  refine ⟨passes.split, passes.resumes.trans ?_⟩
  cases rest with
  | nil => simp only [resume, run, bind, Except.bind, atEnd]
  | cons character rest => simp only [resume, run, alike character rfl]

/-- The reader stops in front of what it cannot go on with. -/
theorem refused {expected : Expectation} (passes : Passes text state front rest)
    (stops : state.StopsAt rest ⟨expected, []⟩) :
    parse text = .error ⟨Text.size front, rest.head?, expected⟩ := by
  rw [passes.resumes, resume_of_stopsAt stops]
  simp [Stop.toSyntaxError]

theorem inText (passes : Passes text state front rest) : Text.size front ≤ Text.size text := by
  rw [passes.split, Text.size_append]
  exact Nat.le_add_right _ _

end Passes

/-- A text in which a word is begun that does not go on is rejected where the word begins. -/
theorem resume_misspelt {read later : Text} {letter : Char} {position : Nat}
    (other : Text.after? (letter :: later) rest = none) :
    resume ⟨stack, .word read letter later⟩ position rest =
      .error ⟨position - Text.size read, (read ++ rest).head?, .value⟩ := by
  induction rest generalizing read letter later position with
  | nil =>
    have stops : State.StopsAt ⟨stack, .word read letter later⟩ [] ⟨.value, read⟩ := rfl
    exact resume_of_stopsAt stops
  | cons character rest ih =>
    by_cases same : character = letter
    · subst same
      rw [Text.after?, if_pos rfl] at other
      cases later with
      | nil => cases other
      | cons following later =>
        have taken : Reads ⟨stack, .word read character (following :: later)⟩ [character]
            ⟨stack, .word (read ++ [character]) following later⟩ := .one (if_pos rfl)
        have split : character :: rest = [character] ++ rest := rfl
        rw [split, resume_append taken, ih other]
        simp only [Text.size_append, List.append_assoc, Nat.add_sub_add_right]
    · have stops : State.StopsAt ⟨stack, .word read letter later⟩ (character :: rest) ⟨.value, read⟩ :=
        if_neg same
      exact resume_of_stopsAt stops

end Stencil.Document
