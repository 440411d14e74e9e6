import Stencil.Proofs.Document.Completeness
import Stencil.Proofs.Document.Soundness

/-! Documents that are nested too deep. The reader goes through them up to the
first brace or bracket that is one too many and stops there. So what it accepts
is what the grammar allows up to the depth limit, and nothing else. -/
namespace Stencil.Document

/-- From a state, the reader stops inside of a text because it is nested too deep. -/
inductive StopsDeep : State → Text → Prop where
  | here {start : State} {character : Char} {rest : Text}
      (refused : step start character = .error ⟨.shallowerData, []⟩) : StopsDeep start (character :: rest)
  | later {start next : State} {character : Char} {rest : Text} (taken : step start character = .ok next)
      (stops : StopsDeep next rest) : StopsDeep start (character :: rest)

theorem StopsDeep.run {start : State} {text : Text} (stops : StopsDeep start text) (position : Nat) :
    ∃ error, Document.run start position text = .error error ∧ error.expected = .shallowerData := by
  induction stops generalizing position with
  | here refused =>
    rw [Document.run, refused]
    exact ⟨_, rfl, rfl⟩
  | later taken _ ih =>
    rw [Document.run, taken]
    exact ih _

/-- What comes behind the place where the reader stops makes no difference. -/
theorem StopsDeep.append {start : State} {front : Text} (stops : StopsDeep start front) (back : Text) :
    StopsDeep start (front ++ back) := by
  induction stops with
  | here refused => exact .here refused
  | later taken _ ih => exact .later taken ih

/-- A text that is read is read in front of the place where the reader stops. -/
theorem StopsDeep.after {start middle : State} {front back : Text} (reads : Reads start front middle)
    (stops : StopsDeep middle back) : StopsDeep start (front ++ back) := by
  have ran := reads 0
  generalize 0 = position at ran
  clear reads
  induction front generalizing start position with
  | nil =>
    obtain rfl := Except.ok.inj ran
    exact stops
  | cons character rest ih =>
    rw [Document.run] at ran
    cases taken : step start character with
    | error stop => simp [taken] at ran
    | ok next =>
      simp only [taken] at ran
      exact .later taken (ih _ ran)

theorem StopsDeep.congr_first {start other : State} {character : Char} {rest : Text}
    (same : step start character = step other character) (stops : StopsDeep other (character :: rest)) :
    StopsDeep start (character :: rest) := by
  cases stops with
  | here refused => exact .here (same.trans refused)
  | later taken stops => exact .later (same.trans taken) stops

/-- What the reader does with the text of a part that is nested too deep for the given containers. -/
def Part.Refused : Part → List Lexeme → Prop
  | .value node, lexemes => ∀ stack, stack.length ≤ depthLimit → depthLimit < stack.length + node.depth →
    StopsDeep ⟨stack, .value⟩ (textOf lexemes)
  | .spaced node, lexemes => ∀ stack start, AwaitsValue stack start → stack.length ≤ depthLimit →
    depthLimit < stack.length + node.depth → StopsDeep start (textOf lexemes)
  | .items inner, lexemes => ∀ stack done start, AwaitsValue (.array done :: stack) start →
    stack.length < depthLimit → depthLimit < stack.length + 1 + depthOfItems inner → StopsDeep start (textOf lexemes)
  | .member _ node, lexemes => ∀ stack done start, AwaitsKey stack done start → stack.length < depthLimit →
    depthLimit < stack.length + 1 + node.depth → StopsDeep start (textOf lexemes)
  | .members inner, lexemes => ∀ stack done start, AwaitsKey stack done start → stack.length < depthLimit →
    depthLimit < stack.length + 1 + depthOfMembers inner → StopsDeep start (textOf lexemes)

private theorem refused_array {items : List Node} {inside : List Lexeme} (within : Part.Refused (.items items) inside) :
    Part.Refused (.value (.array items)) (.mark '[' :: inside ++ [.mark ']']) := by
  intro stack inLimit deep
  rw [Node.depth] at deep
  by_cases room : stack.length < depthLimit
  · have opens : step ⟨stack, .value⟩ '[' = .ok ⟨stack, .firstItem⟩ := by
      simp [step, beginValue, room, Text.isBlank]
    have stops := within stack [] ⟨stack, .firstItem⟩ (.firstItem stack) room (by omega)
    simpa [Lexeme.text] using StopsDeep.later opens (stops.append [']'])
  · apply StopsDeep.here
    simp [step, beginValue, room, Text.isBlank]

private theorem refused_object {members : List (Text × Node)} {inside : List Lexeme}
    (within : Part.Refused (.members members) inside) :
    Part.Refused (.value (.object members)) (.mark '\x7b' :: inside ++ [.mark '\x7d']) := by
  intro stack inLimit deep
  rw [Node.depth] at deep
  by_cases room : stack.length < depthLimit
  · have opens : step ⟨stack, .value⟩ '\x7b' = .ok ⟨stack, .firstKey⟩ := by
      simp [step, beginValue, room, Text.isBlank]
    have stops := within stack [] ⟨stack, .firstKey⟩ (.firstKey stack) room (by omega)
    simpa [Lexeme.text] using StopsDeep.later opens (stops.append ['\x7d'])
  · apply StopsDeep.here
    simp [step, beginValue, room, Text.isBlank]

private theorem refused_spaced {node : Node} {before value after : List Lexeme} (front : Blanks before)
    (phrase : Phrase (.value node) value) (inner : Part.Refused (.value node) value) :
    Part.Refused (.spaced node) (before ++ value ++ after) := by
  intro stack start awaits inLimit deep
  have stops := inner stack inLimit deep
  obtain ⟨first, rest, text_eq, noBlank, noClose⟩ := phrase.value_head
  rw [text_eq] at stops
  have stops : StopsDeep start (first :: rest) :=
    stops.congr_first ((awaits.step noBlank noClose).trans (AwaitsValue.value stack |>.step noBlank noClose).symm)
  rw [textOf_append, textOf_append, text_eq]
  exact (stops.after (reads_blanks front awaits.blank)).append _

private theorem refused_nextItem {item next : Node} {items : List Node} {inside more : List Lexeme}
    (phrase : Phrase (.spaced item) inside) (first : Part.Refused (.spaced item) inside)
    (others : Part.Refused (.items (next :: items)) more) :
    Part.Refused (.items (item :: next :: items)) (inside ++ .mark ',' :: more) := by
  intro stack done start awaits room deep
  rw [depthOfItems] at deep
  rw [textOf_append]
  by_cases shallow : stack.length + 1 + item.depth ≤ depthLimit
  · obtain ⟨stop, reads, holds⟩ := phrase.accepted (.array done :: stack) start awaits shallow
    have comma : step stop ',' = .ok ⟨.array (item :: done) :: stack, .value⟩ := by
      rw [holds.step rfl ⟨by decide, by decide, by decide⟩]
      simp [afterValue, Text.isBlank]
    have stops := others stack (item :: done) _ (.value _) room (by omega)
    exact StopsDeep.after reads (.later comma stops)
  · have stops := first (.array done :: stack) start awaits room (Nat.lt_of_not_le shallow)
    exact stops.append _

private theorem refused_member {key : Text} {node : Node} {before between value : List Lexeme} {name : Lexeme}
    (front : Blanks before) (isKey : IsKey key name) (middle : Blanks between)
    (back : Part.Refused (.spaced node) value) :
    Part.Refused (.member key node) (before ++ name :: between ++ .mark ':' :: value) := by
  intro stack done start awaits room deep
  obtain ⟨keyEnd, readsKey, after⟩ := isKey.reads awaits
  obtain ⟨beforeColon, readsBetween, after⟩ := after.reads_blanks middle
  have colon : step beforeColon ':' = .ok ⟨.object done key :: stack, .value⟩ := by
    rw [after.step (by decide)]
    rfl
  have stops := back (.object done key :: stack) _ (.value _) room deep
  have upToColon := (reads_blanks front awaits.blank).append (readsKey.append readsBetween)
  simpa [Lexeme.text] using StopsDeep.after upToColon (.later colon stops)

private theorem refused_nextMember {key : Text} {node : Node} {next : Text × Node}
    {members : List (Text × Node)} {inside more : List Lexeme} (phrase : Phrase (.member key node) inside)
    (first : Part.Refused (.member key node) inside) (others : Part.Refused (.members (next :: members)) more) :
    Part.Refused (.members ((key, node) :: next :: members)) (inside ++ .mark ',' :: more) := by
  intro stack done start awaits room deep
  rw [depthOfMembers] at deep
  rw [textOf_append]
  by_cases shallow : stack.length + 1 + node.depth ≤ depthLimit
  · obtain ⟨stop, reads, holds⟩ := phrase.accepted stack done start awaits shallow
    have comma : step stop ',' = .ok ⟨stack, .key ((key, node) :: done)⟩ := by
      rw [holds.step rfl ⟨by decide, by decide, by decide⟩]
      simp [afterValue, Text.isBlank]
    have stops := others stack ((key, node) :: done) _ (.key _ _) room (by omega)
    exact StopsDeep.after reads (.later comma stops)
  · have stops := first stack done start awaits room (Nat.lt_of_not_le shallow)
    exact stops.append _

/-- Every phrase that is nested too deep for the place where it is expected is refused there. -/
theorem Phrase.refused {part : Part} {lexemes : List Lexeme} (phrase : Phrase part lexemes) :
    part.Refused lexemes := by
  induction phrase with
  | string | integer | decimal | word =>
    intro stack inLimit deep
    rw [Node.depth] at deep
    omega
  | array _ ih => exact refused_array ih
  | object _ ih => exact refused_object ih
  | spaced front inner _ ih => exact refused_spaced front inner ih
  | noItems =>
    intro stack done start _ room deep
    rw [depthOfItems] at deep
    omega
  | lastItem _ ih =>
    intro stack done start awaits room deep
    simp only [depthOfItems, Nat.max_zero] at deep
    exact ih (.array done :: stack) start awaits room deep
  | nextItem first _ ihFirst ihOthers => exact refused_nextItem first ihFirst ihOthers
  | member front isKey middle _ ih => exact refused_member front isKey middle ih
  | noMembers =>
    intro stack done start _ room deep
    rw [depthOfMembers] at deep
    omega
  | lastMember _ ih =>
    intro stack done start awaits room deep
    simp only [depthOfMembers, Nat.max_zero] at deep
    exact ih stack done start awaits room deep
  | nextMember first _ ihFirst ihOthers => exact refused_nextMember first ihFirst ihOthers

/-- **A document that is nested too deep is refused**, and for that reason. -/
theorem parse_deep {lexemes : List Lexeme} {root : Node} (denotes : Denotes lexemes root)
    (deep : depthLimit < root.depth) :
    ∃ error, parse (textOf lexemes) = .error error ∧ error.expected = .shallowerData := by
  have stops := Phrase.refused denotes [] State.initial (.value []) (Nat.zero_le _) (by simpa using deep)
  obtain ⟨error, ran, reason⟩ := stops.run 0
  exact ⟨error, by simp only [parse, ran, bind, Except.bind], reason⟩

/-- All that the grammar makes of an accepted text is the tree that the reader makes. -/
theorem Denotes.root_eq {lexemes : List Lexeme} {root tree : Node} (denotes : Denotes lexemes tree)
    (parsed : parse (textOf lexemes) = .ok root) : tree = root := by
  by_cases shallow : tree.depth ≤ depthLimit
  · have same := parse_of_denotes denotes shallow
    exact Except.ok.inj (same.symm.trans parsed)
  · obtain ⟨error, refused, _⟩ := parse_deep denotes (Nat.lt_of_not_le shallow)
    rw [parsed] at refused
    cases refused

/-- What the reader accepts is nested within the limit. -/
theorem depth_le_of_parse {text : Text} {root : Node} (parsed : parse text = .ok root) :
    root.depth ≤ depthLimit := by
  obtain ⟨lexemes, denotes, rfl⟩ := denotes_of_parse parsed
  by_contra deep
  obtain ⟨error, refused, _⟩ := parse_deep denotes (Nat.lt_of_not_le deep)
  rw [parsed] at refused
  cases refused

/-- The reader accepts the documents of the grammar up to the depth limit, and makes their trees. -/
theorem parse_eq_ok_iff {text : Text} {root : Node} :
    parse text = .ok root ↔ (∃ lexemes, Denotes lexemes root ∧ textOf lexemes = text) ∧ root.depth ≤ depthLimit := by
  constructor
  · intro parsed
    exact ⟨denotes_of_parse parsed, depth_le_of_parse parsed⟩
  · rintro ⟨⟨lexemes, denotes, rfl⟩, shallow⟩
    exact parse_of_denotes denotes shallow

/-- A text is accepted if and only if the grammar makes a tree of it that is nested within the limit. -/
theorem parses_iff {text : Text} : (∃ root, parse text = .ok root) ↔
    ∃ lexemes root, Denotes lexemes root ∧ textOf lexemes = text ∧ root.depth ≤ depthLimit := by
  simp only [parse_eq_ok_iff]
  constructor
  · rintro ⟨root, ⟨lexemes, denotes, text_eq⟩, shallow⟩
    exact ⟨lexemes, root, denotes, text_eq, shallow⟩
  · rintro ⟨lexemes, root, denotes, text_eq, shallow⟩
    exact ⟨root, ⟨lexemes, denotes, text_eq⟩, shallow⟩

end Stencil.Document
