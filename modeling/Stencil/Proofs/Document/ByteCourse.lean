import Mathlib.Data.List.TakeWhile
import Stencil.Document.ByteReader
import Stencil.Proofs.Text.Bytes
import Stencil.Proofs.Document.Reading

/-! Courses of the reader in bytes that go well. The finger moves on only, and
stays in the text; values are not begun too deep inside of others; and the
reader halts for no other reason than the reader of characters. Such courses
can be put one after the other, and made of one turn after the other. -/
namespace Stencil.Document.ByteReader

variable {text : Text} {α β σ : Type}

/-! ### Courses that go well -/

/-- Two places between characters of a text, the second not in front of the first. -/
structure IsSlice (text : Text) (start stop : Nat) : Prop where
  ordered : start ≤ stop
  inside : stop ≤ Text.size text
  begins : Text.isBoundary text.bytes start = true
  ends : Text.isBoundary text.bytes stop = true

/-- What may be done on the way from one place of the finger to another. -/
inductive Travels (text : Text) : (start : Nat) → List Event → (stop : Nat) → Prop where
  | stays {finger : Nat} : Travels text finger [] finger
  | moved {start finger stop : Nat} {later : List Event} (onward : start < finger)
      (inside : finger ≤ Text.size text) (rest : Travels text finger later stop) :
      Travels text start (.moved finger :: later) stop
  | called {start level stop : Nat} {later : List Event} (shallow : level ≤ depthLimit + 1)
      (rest : Travels text start later stop) : Travels text start (.called level :: later) stop
  | sliced {start first last stop : Nat} {later : List Event} (slice : IsSlice text first last)
      (rest : Travels text start later stop) : Travels text start (.sliced first last :: later) stop

/-- What the reader may do at all. -/
def Event.IsSafe (text : Text) : Event → Prop
  | .moved finger => finger ≤ Text.size text
  | .called level => level ≤ depthLimit + 1
  | .sliced start stop => IsSlice text start stop

/-- The places to which the finger is put, in order. -/
def fingersOf : List Event → List Nat
  | [] => []
  | .moved finger :: later => finger :: fingersOf later
  | .called _ :: later | .sliced _ _ :: later => fingersOf later

namespace Travels

variable {start middle stop : Nat} {first second events : List Event}

theorem append (begun : Travels text start first middle) (ended : Travels text middle second stop) :
    Travels text start (first ++ second) stop := by
  induction begun with
  | stays => exact ended
  | moved onward inside _ ih => exact .moved onward inside (ih ended)
  | called shallow _ ih => exact .called shallow (ih ended)
  | sliced slice _ ih => exact .sliced slice (ih ended)

theorem le (travels : Travels text start events stop) : start ≤ stop := by
  induction travels with
  | stays => exact Nat.le_refl _
  | moved onward _ _ ih => exact Nat.le_trans (Nat.le_of_lt onward) ih
  | called _ _ ih | sliced _ _ ih => exact ih

/-- The finger moves on. -/
theorem ascending (travels : Travels text start events stop) :
    (fingersOf events).Pairwise (· < ·) ∧ ∀ finger ∈ fingersOf events, start < finger := by
  induction travels with
  | stays => exact ⟨.nil, nofun⟩
  | moved onward _ _ ih =>
    obtain ⟨ascending, behind⟩ := ih
    refine ⟨.cons behind ascending, ?_⟩
    intro finger member
    rcases List.mem_cons.mp member with rfl | member
    · exact onward
    · exact Nat.lt_trans onward (behind finger member)
  | called _ _ ih | sliced _ _ ih => exact ih

/-- Whatever is done on the way may be done. -/
theorem isSafe (travels : Travels text start events stop) {event : Event} (member : event ∈ events) :
    event.IsSafe text := by
  induction travels with
  | stays => cases member
  | moved _ inside _ ih =>
    rcases List.mem_cons.mp member with rfl | member
    · exact inside
    · exact ih member
  | called shallow _ ih =>
    rcases List.mem_cons.mp member with rfl | member
    · exact shallow
    · exact ih member
  | sliced slice _ ih =>
    rcases List.mem_cons.mp member with rfl | member
    · exact slice
    · exact ih member

end Travels

/-- The reader halts because the reader of characters rejects the text with the same error. -/
def Halt.IsRejection (text : Text) (halt : Halt) : Prop :=
  ∃ error, halt = .rejected error ∧ Document.parse text = .error error

/-- The course of a reader whose finger is at `start` goes well: on the way
nothing happens that may not, and the reader halts only with the error that the
reader of characters finds in the text. If it does not halt, `post` holds of its
result and of the place where the finger is then. -/
def Course.Sound (course : Course α) (text : Text) (start : Nat) (post : α → Nat → Prop) : Prop :=
  ∃ stop, Travels text start course.events stop ∧
    match course.outcome with
    | .ok value => post value stop
    | .error halt => halt.IsRejection text

/-- How a turn of a loop may end. If it is not the last, it brings the finger on,
leaves it in the text, and keeps an invariant. -/
def Turn.Ends (text : Text) (invariant : σ → Nat → Prop) (post : α × Nat → Nat → Prop) (finger : Nat) :
    Turn σ α × Nat → Nat → Prop
  | (.again state, next), place => next = place ∧ finger < next ∧ next ≤ Text.size text ∧ invariant state next
  | (.last result, next), place => post (result, next) place

namespace Course.Sound

variable {start finger : Nat} {post : α → Nat → Prop}

theorem done {value : α} (holds : post value start) : (pure value : Course α).Sound text start post :=
  ⟨start, .stays, holds⟩

theorem rejected {error : SyntaxError} (fails : Document.parse text = .error error) :
    (halt (.rejected error) : Course α).Sound text start post :=
  ⟨start, .stays, error, rfl, fails⟩

theorem choose {condition : Prop} [Decidable condition] {first second : Course α}
    (taken : condition → first.Sound text start post) (other : ¬ condition → second.Sound text start post) :
    (if condition then first else second).Sound text start post := by
  split
  · exact taken ‹_›
  · exact other ‹_›

/-- One course goes well after the other. -/
theorem andThen {first : Course β} {second : β → Course α} {middle : β → Nat → Prop}
    (begun : first.Sound text start middle)
    (ended : ∀ value place, start ≤ place → middle value place → (second value).Sound text place post) :
    (first >>= second).Sound text start post := by
  obtain ⟨events, outcome⟩ := first
  obtain ⟨place, travels, reached⟩ := begun
  cases outcome with
  | ok value =>
    obtain ⟨stop, onward, reached'⟩ := ended value place travels.le reached
    exact ⟨stop, travels.append onward, reached'⟩
  | error halt => exact ⟨place, travels, reached⟩

/-- The finger is moved first. -/
theorem moveThen {second : Nat → Course α} (onward : start < finger) (inside : finger ≤ Text.size text)
    (ended : (second finger).Sound text finger post) : (ByteReader.moveTo finger >>= second).Sound text start post := by
  obtain ⟨stop, travels, reached⟩ := ended
  exact ⟨stop, .moved onward inside travels, reached⟩

/-- A value is begun first. -/
theorem callThen {second : Unit → Course α} {level : Nat} (shallow : level ≤ depthLimit + 1)
    (ended : (second ()).Sound text start post) : (call level >>= second).Sound text start post := by
  obtain ⟨stop, travels, reached⟩ := ended
  exact ⟨stop, .called shallow travels, reached⟩

theorem weaken {course : Course α} {weaker : α → Nat → Prop} (sound : course.Sound text start post)
    (weakens : ∀ value place, post value place → weaker value place) : course.Sound text start weaker := by
  obtain ⟨events, outcome⟩ := course
  obtain ⟨stop, travels, reached⟩ := sound
  cases outcome with
  | ok value => exact ⟨stop, travels, weakens value stop reached⟩
  | error halt => exact ⟨stop, travels, reached⟩

/-- **A loop goes well if every turn of it does.** -/
theorem loop {turn : σ → Nat → Course (Turn σ α × Nat)} {post : α × Nat → Nat → Prop}
    (invariant : σ → Nat → Prop)
    (keeps : ∀ state finger, invariant state finger →
      (turn state finger).Sound text finger (Turn.Ends text invariant post finger))
    {state : σ} {finger : Nat} (holds : invariant state finger) :
    (ByteReader.loop text turn state finger).Sound text finger post := by
  induction left : Text.size text - finger using Nat.strongRecOn generalizing state finger with
  | ind left ih =>
    rw [ByteReader.loop]
    refine (keeps state finger holds).andThen fun ended place _ reached => ?_
    obtain ⟨_ | _, next⟩ := ended
    · obtain ⟨rfl, onward, inside, holds⟩ := reached
      simp only [if_pos (And.intro onward inside)]
      exact ih _ (by omega) holds rfl
    · exact .done reached

end Course.Sound

/-! ### Bytes of characters -/

/-- A kind of bytes says of every byte of a character whether the character is of a class. -/
def Agrees (kind : UInt8 → Bool) (isMember : Char → Bool) : Prop :=
  ∀ character, ∀ byte ∈ String.utf8EncodeChar character, kind byte = isMember character

namespace Agrees

variable {kind kind' : UInt8 → Bool} {isMember isMember' : Char → Bool}

theorem either (first : Agrees kind isMember) (second : Agrees kind' isMember') :
    Agrees (fun byte => kind byte || kind' byte) fun character => isMember character || isMember' character := by
  intro character byte member
  simp only [first character byte member, second character byte member]

theorem within {low high : Char} (lowAscii : low.toNat < 128) (highAscii : high.toNat < 128) :
    Agrees (ByteReader.within low high) fun character => decide (low ≤ character) && decide (character ≤ high) := by
  intro character byte member
  have below := Text.toNat_lt_iff (Nat.le_of_lt lowAscii) member
  have above := Text.toNat_lt_iff (Nat.succ_le_of_lt highAscii) member
  have order (left right : Char) : left ≤ right ↔ left.toNat ≤ right.toNat := UInt32.le_iff_toNat_le
  rw [ByteReader.within, Bool.eq_iff_iff]
  simp only [Bool.and_eq_true, decide_eq_true_eq, UInt8.le_iff_toNat_le, Text.toNat_toUInt8 lowAscii,
    Text.toNat_toUInt8 highAscii, order]
  omega

theorem is {wanted : Char} (ascii : wanted.toNat < 128) :
    Agrees (ByteReader.is wanted) fun character => decide (character = wanted) := by
  intro character byte member
  have below := Text.toNat_lt_iff (Nat.le_of_lt ascii) member
  have above := Text.toNat_lt_iff (Nat.succ_le_of_lt ascii) member
  rw [ByteReader.is, Bool.eq_iff_iff]
  simp only [decide_eq_true_eq, ← UInt8.toNat_inj, ← Char.toNat_inj, Text.toNat_toUInt8 ascii]
  omega

theorem isBlank : Agrees ByteReader.isBlank Text.isBlank :=
  (((is (by decide)).either (is (by decide))).either (is (by decide))).either (is (by decide))

theorem isDigit : Agrees ByteReader.isDigit Char.isDigit := within (by decide) (by decide)

theorem isHexDigit : Agrees ByteReader.isHexDigit Text.isHexDigit :=
  (isDigit.either (within (by decide) (by decide))).either (within (by decide) (by decide))

theorem isControl : Agrees ByteReader.isControl fun character => decide (character.toNat < 0x20) := by
  intro character byte member
  have below := Text.toNat_lt_iff (by decide : 0x20 ≤ 128) member
  exact decide_eq_decide.mpr (UInt8.lt_iff_toNat_lt.trans below)

theorem isShortEscape : Agrees ByteReader.isShortEscape Document.isShortEscape :=
  (((((((is (by decide)).either (is (by decide))).either (is (by decide))).either (is (by decide))).either
    (is (by decide))).either (is (by decide))).either (is (by decide))).either (is (by decide))

theorem isBeyondAscii : Agrees ByteReader.isBeyondAscii fun character => decide (0x80 ≤ character.toNat) := by
  intro character byte member
  have below := Text.toNat_lt_iff (Nat.le_refl 128) member
  apply decide_eq_decide.mpr
  rw [UInt8.le_iff_toNat_le]
  exact not_lt.symm.trans ((not_congr below).trans not_lt)

theorem isKeyByte : Agrees ByteReader.isKeyByte isKeyCharacter := by
  have isUpper_eq : Char.isUpper = fun character => decide ('A' ≤ character) && decide (character ≤ 'Z') := by
    funext character
    exact Bool.decide_and _ _
  have upper : Agrees (ByteReader.within 'A' 'Z') Char.isUpper := isUpper_eq ▸ within (by decide) (by decide)
  have lower : Agrees _ Char.isLower := @within 'a' 'z' (by decide) (by decide)
  have letter : Agrees _ Char.isAlphanum := (upper.either lower).either isDigit
  exact ((letter.either (@is '_' (by decide))).either (@is '$' (by decide))).either isBeyondAscii

end Agrees

/-! ### Looking, slicing and skipping -/

variable {front part rest : Text} {kind : UInt8 → Bool} {isMember : Char → Bool}

/-- The byte at the front of a character is one of its bytes. -/
theorem getElem?_at (split : text = front ++ rest) : text.bytes[Text.size front]? = rest.bytes[0]? := by
  rw [split, Text.bytes_append, ← Text.length_bytes, List.getElem?_append_right (Nat.le_refl _), Nat.sub_self]

/-- What is seen in front of a character says of which class it is. -/
theorem sees_eq (agrees : Agrees kind isMember) (split : text = front ++ rest) :
    sees text (Text.size front) kind = rest.head?.any isMember := by
  rw [sees, getElem?_at split]
  cases rest with
  | nil => rfl
  | cons character rest =>
    obtain ⟨first, later, encoded, _⟩ := Text.exists_first_byte character
    have same := agrees character first (by simp [encoded])
    simpa [encoded] using same

/-- Inside of characters of a class, all bytes are of the kind. -/
theorem sees_inside (agrees : Agrees kind isMember) (split : text = front ++ part ++ rest)
    (members : ∀ character ∈ part, isMember character = true) {finger : Nat} (behind : Text.size front ≤ finger)
    (inside : finger < Text.size (front ++ part)) : sees text finger kind = true := by
  have within : finger - Text.size front < part.bytes.length := by
    rw [Text.size_append] at inside
    rw [Text.length_bytes]
    omega
  have found : text.bytes[finger]? = some part.bytes[finger - Text.size front] := by
    rw [← List.getElem?_eq_getElem within, split, Text.bytes_append, Text.bytes_append, List.getElem?_append_left,
      List.getElem?_append_right, Text.length_bytes]
    · rwa [Text.length_bytes]
    · rwa [← Text.bytes_append, Text.length_bytes]
  obtain ⟨character, known, member⟩ := List.mem_flatMap.mp (List.getElem_mem within)
  rw [sees, found, Option.any_some, agrees character _ member]
  exact members character known

namespace Course.Sound

variable {character : Char} {post : α → Nat → Prop}

/-- The text is sliced between two places between characters. -/
theorem sliceThen {second : Text → Course α} {start : Nat} (split : text = front ++ part ++ rest)
    (ended : (second part).Sound text start post) :
    (slice text (Text.size front) (Text.size (front ++ part)) >>= second).Sound text start post := by
  have taken : slice text (Text.size front) (Text.size (front ++ part)) =
      ⟨[.sliced (Text.size front) (Text.size (front ++ part))], .ok part⟩ := by
    simp only [slice, split, Text.cut?_append, Option.bind_some]
  have isSlice : IsSlice text (Text.size front) (Text.size (front ++ part)) := by
    rw [split]
    refine ⟨?_, ?_, ?_, Text.isBoundary_append (front ++ part) rest⟩
    · rw [Text.size_append]
      exact Nat.le_add_right _ _
    · rw [Text.size_append (front ++ part)]
      exact Nat.le_add_right _ _
    · rw [List.append_assoc]
      exact Text.isBoundary_append front (part ++ rest)
  obtain ⟨stop, travels, reached⟩ := ended
  rw [taken]
  exact ⟨stop, .sliced isSlice travels, reached⟩

/-- The text is sliced from a place between characters on. -/
theorem sliceToEndThen {second : Text → Course α} {start : Nat} (split : text = front ++ rest)
    (ended : (second rest).Sound text start post) :
    (slice text (Text.size front) (Text.size text) >>= second).Sound text start post := by
  have whole : text = front ++ rest ++ [] := by rw [split, List.append_nil]
  have sliced := sliceThen whole ended
  rwa [← split] at sliced

/-- The reader looks at the next character. -/
theorem look {first second : Course α} {start : Nat} (agrees : Agrees kind isMember) (split : text = front ++ rest)
    (taken : ∀ character later, rest = character :: later → isMember character = true →
      first.Sound text start post)
    (other : (∀ character ∈ rest.head?, isMember character = false) → second.Sound text start post) :
    (if sees text (Text.size front) kind then first else second).Sound text start post := by
  rw [sees_eq agrees split]
  cases rest with
  | nil => exact other nofun
  | cons character later =>
    apply choose
    · intro member
      exact taken character later rfl member
    · intro member
      apply other
      rintro _ ⟨⟩
      exact Bool.eq_false_iff.mpr member

/-- The reader looks whether the next character is the wanted one. -/
theorem lookFor {first second : Course α} {start : Nat} {wanted : Char} (ascii : wanted.toNat < 128)
    (split : text = front ++ rest)
    (taken : ∀ later, rest = wanted :: later → first.Sound text start post)
    (other : (∀ character ∈ rest.head?, character ≠ wanted) → second.Sound text start post) :
    (if sees text (Text.size front) (is wanted) then first else second).Sound text start post := by
  apply look (Agrees.is ascii) split
  · rintro character later rfl isWanted
    obtain rfl := of_decide_eq_true isWanted
    exact taken later rfl
  · intro unwanted
    exact other fun character isHead => of_decide_eq_false (unwanted character isHead)

/-- Behind a character of ASCII. -/
theorem takeThen {second : Nat → Course α} (split : text = front ++ character :: rest)
    (ascii : character.toNat < 128)
    (ended : (second (Text.size (front ++ [character]))).Sound text (Text.size (front ++ [character])) post) :
    (ByteReader.moveTo (Text.size front + 1) >>= second).Sound text (Text.size front) post := by
  have one : Text.size (front ++ [character]) = Text.size front + 1 := by
    rw [Text.size_append, Text.size_ascii ascii]
  rw [one] at ended
  apply moveThen (Nat.lt_succ_self _) _ ended
  rw [split, ← List.singleton_append, ← List.append_assoc, Text.size_append, one]
  exact Nat.le_add_right _ _

/-- The reader takes the wanted character if it is the next one. -/
theorem lookForThen {first : Nat → Course α} {second : Course α} {wanted : Char} (ascii : wanted.toNat < 128)
    (split : text = front ++ rest)
    (taken : ∀ later, rest = wanted :: later →
      (first (Text.size (front ++ [wanted]))).Sound text (Text.size (front ++ [wanted])) post)
    (other : (∀ character ∈ rest.head?, character ≠ wanted) → second.Sound text (Text.size front) post) :
    (if sees text (Text.size front) (is wanted) then ByteReader.moveTo (Text.size front + 1) >>= first
      else second).Sound text (Text.size front) post := by
  apply lookFor ascii split
  · rintro later rfl
    exact takeThen split ascii (taken later rfl)
  · exact other

theorem take {post : Nat → Nat → Prop} (split : text = front ++ character :: rest) (ascii : character.toNat < 128)
    (holds : post (Text.size (front ++ [character])) (Text.size (front ++ [character]))) :
    (ByteReader.moveTo (Text.size front + 1)).Sound text (Text.size front) post := by
  have ended := takeThen split ascii (.done holds)
  exact ended

end Course.Sound

/-- Characters of a class end in front of one that is not of the class. -/
theorem head_dropWhile {character : Char} (isHead : character ∈ (rest.dropWhile isMember).head?) :
    isMember character = false := by
  have stops := List.head?_dropWhile_not isMember rest
  rw [Option.mem_def.mp isHead] at stops
  exact stops

/-- Bytes of a kind are skipped up to the first character that is not of the class. -/
theorem skip_sound (agrees : Agrees kind isMember) (split : text = front ++ rest) :
    (skip text kind (Text.size front)).Sound text (Text.size front) fun place stop =>
      place = Text.size (front ++ rest.takeWhile isMember) ∧ stop = place := by
  have division : text = front ++ rest.takeWhile isMember ++ rest.dropWhile isMember := by
    rw [List.append_assoc, List.takeWhile_append_dropWhile, split]
  have inside : Text.size (front ++ rest.takeWhile isMember) ≤ Text.size text := by
    rw [division, Text.size_append _ (rest.dropWhile isMember)]
    exact Nat.le_add_right _ _
  have begun : Text.size front ≤ Text.size (front ++ rest.takeWhile isMember) := by
    rw [Text.size_append]
    exact Nat.le_add_right _ _
  have turns : (loop text (skipTurn text kind) () (Text.size front)).Sound text (Text.size front)
      fun ended stop => ended.2 = Text.size (front ++ rest.takeWhile isMember) ∧ stop = ended.2 := by
    apply Course.Sound.loop fun _ finger =>
      Text.size front ≤ finger ∧ finger ≤ Text.size (front ++ rest.takeWhile isMember)
    · rintro _ finger ⟨behind, before⟩
      apply Course.Sound.choose
      · intro saw
        have further : finger < Text.size (front ++ rest.takeWhile isMember) := by
          apply Nat.lt_of_le_of_ne before
          rintro rfl
          rw [sees_eq agrees division] at saw
          obtain ⟨character, isHead, member⟩ := Option.any_eq_true _ _ |>.mp saw
          rw [head_dropWhile isHead] at member
          cases member
        refine .moveThen (Nat.lt_succ_self finger) (by omega) (.done ?_)
        exact ⟨rfl, Nat.lt_succ_self finger, by omega, by omega, by omega⟩
      · intro unseen
        have reached : finger = Text.size (front ++ rest.takeWhile isMember) := by
          apply Nat.le_antisymm before
          apply Nat.le_of_not_lt
          intro further
          exact unseen (sees_inside agrees division (fun _ member => List.mem_takeWhile_imp member) behind further)
        exact .done ⟨reached, rfl⟩
    · exact ⟨Nat.le_refl _, begun⟩
  refine turns.andThen ?_
  rintro ⟨_, next⟩ place _ ⟨rfl, rfl⟩
  exact .done ⟨rfl, rfl⟩

end Stencil.Document.ByteReader
