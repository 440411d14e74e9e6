import Stencil.Json.Numeral

/-! The reader of JSON text. It knows the containers that it is inside of, and
either needs a value or has completed one; every step reads at least one
character, so the reading ends. -/

namespace Stencil.Json

/-- A container that is being read, with what it holds so far. -/
inductive Container where
  /-- The items are listed with the latest first. -/
  | array (items : List Value)
  | object (members : List (Text × Value)) (key : Text)
deriving Repr, BEq

/-- The reader between two tokens: the containers that it is inside of, the
innermost first, and the value that it has just completed; none if it needs one. -/
structure Progress where
  stack : List Container
  complete : Option Value
  cursor : Cursor
deriving Repr, BEq

/-- Values that are kept are nested at most this deep. -/
def depthLimit : Nat := 127

/-- Reads a number without its sign. A number that is skipped may be out of range. -/
def readNumber (care : Care) (negative : Bool) (cursor : Cursor) : Except Fault (Value × Cursor) :=
  match readNumeral care negative cursor with
  | .error fault => .error fault
  | .ok (numeral, next) =>
    match care, numeral.number with
    | .skipped, _ => .ok (.null, next)
    | .kept, .ok number => .ok (.number number, next)
    | .kept, .error unread => .error ⟨.numberOutOfRange, some (next.offset - unread)⟩

/-- Reads the letters of a word after the first. -/
def readWordValue (value : Value) (letters : Text) (cursor : Cursor) : Except Fault (Value × Cursor) :=
  (cursor.readWord letters).map fun next => (value, next)

/-- Reads a value that is no container. -/
def readScalar (care : Care) (cursor : Cursor) : Except Fault (Value × Cursor) :=
  match cursor.rest with
  | [] => .error (cursor.faultBehind .endInValue)
  | first :: rest =>
    let next : Cursor := ⟨cursor.offset + first.utf8Size, rest⟩
    if first = 'n' then readWordValue .null ['u', 'l', 'l'] next
    else if first = 't' then readWordValue (.boolean true) ['r', 'u', 'e'] next
    else if first = 'f' then readWordValue (.boolean false) ['a', 'l', 's', 'e'] next
    else if first = '"' then (readContents care next).map fun (text, last) => (.string text, last)
    else if first = '-' then readNumber care true next
    else if first.isDigit then readNumber care false cursor
    else .error (cursor.faultBehind .valueExpected)

/-- Reads the colon after a key. -/
def readColon (cursor : Cursor) : Except Fault Cursor :=
  let colon := cursor.skipBlanks
  match colon.rest with
  | [] => .error (colon.faultBehind .endInObject)
  | first :: rest =>
    if first = ':' then .ok ⟨colon.offset + first.utf8Size, rest⟩
    else .error (colon.faultBehind .colonExpected)

/-- Reads a key after its opening quote, and the colon after it. -/
def readKey (care : Care) (cursor : Cursor) : Except Fault (Text × Cursor) :=
  match readContents care cursor with
  | .error fault => .error fault
  | .ok (key, next) => (readColon next).map fun last => (key, last)

/-- Begins an array after its opening bracket. -/
def beginArray (stack : List Container) (cursor : Cursor) : Except Fault Progress :=
  let inside := cursor.skipBlanks
  match inside.rest with
  | [] => .error (inside.faultBehind .endInArray)
  | first :: rest =>
    if first = ']' then .ok ⟨stack, some (.array []), ⟨inside.offset + first.utf8Size, rest⟩⟩
    else .ok ⟨.array [] :: stack, none, inside⟩

/-- Begins a member of an object at its key. -/
def beginMember (care : Care) (stack : List Container) (members : List (Text × Value))
    (cursor : Cursor) : Except Fault Progress :=
  (readKey care cursor).map fun (key, next) => ⟨.object members key :: stack, none, next⟩

/-- Begins an object after its opening brace. -/
def beginObject (care : Care) (stack : List Container) (cursor : Cursor) : Except Fault Progress :=
  let inside := cursor.skipBlanks
  match inside.rest with
  | [] => .error (inside.faultBehind .endInObject)
  | first :: rest =>
    let next : Cursor := ⟨inside.offset + first.utf8Size, rest⟩
    if first = '\x7d' then .ok ⟨stack, some (.object []), next⟩
    else if first = '"' then beginMember care stack [] next
    else .error (inside.faultBehind .keyNotString)

/-- Begins a value. -/
def beginValue (care : Care) (stack : List Container) (cursor : Cursor) : Except Fault Progress :=
  let start := cursor.skipBlanks
  match start.rest with
  | [] => .error (start.faultBehind .endInValue)
  | first :: rest =>
    let next : Cursor := ⟨start.offset + first.utf8Size, rest⟩
    if first = '[' ∨ first = '\x7b' then
      if care = .kept ∧ depthLimit ≤ stack.length then .error (start.faultBehind .tooDeep)
      else if first = '[' then beginArray stack next
      else beginObject care stack next
    else (readScalar care start).map fun (value, last) => ⟨stack, some value, last⟩

/-- Goes on after a comma in an array. That the array does not end here is only
looked after in a value that is kept; otherwise it shows when the next value is
read. -/
def nextItem (care : Care) (stack : List Container) (items : List Value) (cursor : Cursor) :
    Except Fault Progress :=
  let inside := cursor.skipBlanks
  let begun : Except Fault Progress := .ok ⟨.array items :: stack, none, inside⟩
  match care, inside.rest with
  | .skipped, _ => begun
  | .kept, [] => .error (inside.faultBehind .endInValue)
  | .kept, first :: _ => if first = ']' then .error (inside.faultBehind .trailingComma) else begun

/-- Goes on after a comma in an object. -/
def nextMember (care : Care) (stack : List Container) (members : List (Text × Value))
    (cursor : Cursor) : Except Fault Progress :=
  let inside := cursor.skipBlanks
  match inside.rest with
  | [] => .error (inside.faultBehind (if care = .kept then .endInValue else .endInObject))
  | first :: rest =>
    if first = '"' then beginMember care stack members ⟨inside.offset + first.utf8Size, rest⟩
    else if first = '\x7d' ∧ care = .kept then .error (inside.faultBehind .trailingComma)
    else .error (inside.faultBehind .keyNotString)

/-- Goes on after a value in a container. -/
def afterValue (care : Care) (stack : List Container) (container : Container) (value : Value)
    (cursor : Cursor) : Except Fault Progress :=
  let separator := cursor.skipBlanks
  match container, separator.rest with
  | .array _, [] => .error (separator.faultBehind .endInArray)
  | .object _ _, [] => .error (separator.faultBehind .endInObject)
  | .array items, first :: rest =>
    let next : Cursor := ⟨separator.offset + first.utf8Size, rest⟩
    if first = ']' then .ok ⟨stack, some (.array (value :: items).reverse), next⟩
    else if first = ',' then nextItem care stack (value :: items) next
    else .error (separator.faultBehind .arrayCommaExpected)
  | .object members key, first :: rest =>
    let next : Cursor := ⟨separator.offset + first.utf8Size, rest⟩
    if first = '\x7d' then .ok ⟨stack, some (.object (Table.insert key value members)), next⟩
    else if first = ',' then nextMember care stack (Table.insert key value members) next
    else .error (separator.faultBehind .objectCommaExpected)

theorem Cursor.length_le_of_readWord {cursor next : Cursor} {letters : Text}
    (reads : cursor.readWord letters = .ok next) : next.rest.length ≤ cursor.rest.length := by
  induction letters generalizing cursor with
  | nil =>
    simp only [readWord, Except.ok.injEq] at reads
    exact Nat.le_of_eq (reads ▸ rfl)
  | cons letter letters ih =>
    obtain ⟨offset, rest⟩ := cursor
    cases rest with
    | nil => simp [readWord] at reads
    | cons found rest =>
      simp only [readWord] at reads
      split at reads
      · exact Nat.le_succ_of_le (ih reads)
      · simp at reads

theorem length_lt_of_readNumber {care : Care} {negative : Bool} {cursor next : Cursor} {value : Value}
    (reads : readNumber care negative cursor = .ok (value, next)) :
    next.rest.length < cursor.rest.length := by
  unfold readNumber at reads
  split at reads
  · simp at reads
  · rename_i readsNumeral
    split at reads
    · simp only [Except.ok.injEq, Prod.mk.injEq] at reads
      exact reads.2 ▸ length_lt_of_readNumeral readsNumeral
    · simp only [Except.ok.injEq, Prod.mk.injEq] at reads
      exact reads.2 ▸ length_lt_of_readNumeral readsNumeral
    · simp at reads

theorem length_le_of_readWordValue {word value : Value} {letters : Text} {cursor next : Cursor}
    (reads : readWordValue word letters cursor = .ok (value, next)) :
    next.rest.length ≤ cursor.rest.length := by
  unfold readWordValue at reads
  cases inner : cursor.readWord letters with
  | error fault => simp [inner, Except.map] at reads
  | ok last =>
    simp only [inner, Except.map, Except.ok.injEq, Prod.mk.injEq] at reads
    exact reads.2 ▸ Cursor.length_le_of_readWord inner

theorem length_lt_of_readScalar {care : Care} {cursor next : Cursor} {value : Value}
    (reads : readScalar care cursor = .ok (value, next)) :
    next.rest.length < cursor.rest.length := by
  obtain ⟨offset, rest⟩ := cursor
  cases rest with
  | nil => simp [readScalar] at reads
  | cons first rest =>
    simp only [readScalar] at reads
    repeat' split at reads
    · exact Nat.lt_succ_of_le (length_le_of_readWordValue reads)
    · exact Nat.lt_succ_of_le (length_le_of_readWordValue reads)
    · exact Nat.lt_succ_of_le (length_le_of_readWordValue reads)
    · cases inner : readContents care ⟨offset + first.utf8Size, rest⟩ with
      | error fault => simp [inner, Except.map] at reads
      | ok found =>
        obtain ⟨text, last⟩ := found
        simp only [inner, Except.map, Except.ok.injEq, Prod.mk.injEq] at reads
        exact Nat.lt_succ_of_lt (reads.2 ▸ length_lt_of_readContents inner)
    · exact Nat.lt_succ_of_lt (length_lt_of_readNumber reads)
    · exact length_lt_of_readNumber reads
    · simp at reads

theorem length_le_of_readColon {cursor next : Cursor} (reads : readColon cursor = .ok next) :
    next.rest.length ≤ cursor.rest.length := by
  have blanks_le := cursor.length_skipBlanks_le
  simp only [readColon] at reads
  split at reads
  · simp at reads
  · rename_i first rest rest_eq
    split at reads
    · simp only [Except.ok.injEq] at reads
      simp only [← reads, rest_eq, List.length_cons] at *
      omega
    · simp at reads

theorem length_le_of_readKey {care : Care} {cursor next : Cursor} {key : Text}
    (reads : readKey care cursor = .ok (key, next)) :
    next.rest.length ≤ cursor.rest.length := by
  unfold readKey at reads
  split at reads
  · simp at reads
  · rename_i found middle readsContents
    cases inner : readColon middle with
    | error fault => simp [inner, Except.map] at reads
    | ok last =>
      simp only [inner, Except.map, Except.ok.injEq, Prod.mk.injEq] at reads
      have contents_lt := length_lt_of_readContents readsContents
      have colon_le := length_le_of_readColon inner
      rw [← reads.2]
      omega

theorem length_le_of_beginArray {stack : List Container} {cursor : Cursor} {next : Progress}
    (reads : beginArray stack cursor = .ok next) :
    next.cursor.rest.length ≤ cursor.rest.length := by
  have blanks_le := cursor.length_skipBlanks_le
  simp only [beginArray] at reads
  split at reads
  · simp at reads
  · rename_i first rest rest_eq
    split at reads <;>
      simp only [Except.ok.injEq] at reads <;>
      simp only [← reads, rest_eq, List.length_cons] at * <;>
      omega

theorem length_le_of_beginMember {care : Care} {stack : List Container}
    {members : List (Text × Value)} {cursor : Cursor} {next : Progress}
    (reads : beginMember care stack members cursor = .ok next) :
    next.cursor.rest.length ≤ cursor.rest.length := by
  unfold beginMember at reads
  cases inner : readKey care cursor with
  | error fault => simp [inner, Except.map] at reads
  | ok found =>
    obtain ⟨key, last⟩ := found
    simp only [inner, Except.map, Except.ok.injEq] at reads
    rw [← reads]
    exact length_le_of_readKey inner

theorem length_le_of_beginObject {care : Care} {stack : List Container} {cursor : Cursor}
    {next : Progress} (reads : beginObject care stack cursor = .ok next) :
    next.cursor.rest.length ≤ cursor.rest.length := by
  have blanks_le := cursor.length_skipBlanks_le
  simp only [beginObject] at reads
  split at reads
  · simp at reads
  · rename_i first rest rest_eq
    rw [rest_eq, List.length_cons] at blanks_le
    split at reads
    · simp only [Except.ok.injEq] at reads
      simp only [← reads]
      omega
    · split at reads
      · have member_le := length_le_of_beginMember reads
        simp only at member_le
        omega
      · simp at reads

theorem length_lt_of_beginValue {care : Care} {stack : List Container} {cursor : Cursor}
    {next : Progress} (reads : beginValue care stack cursor = .ok next) :
    next.cursor.rest.length < cursor.rest.length := by
  have blanks_le := cursor.length_skipBlanks_le
  simp only [beginValue] at reads
  split at reads
  · simp at reads
  · rename_i first rest rest_eq
    split at reads
    · rw [rest_eq, List.length_cons] at blanks_le
      split at reads
      · simp at reads
      · split at reads
        · have array_le := length_le_of_beginArray reads
          simp only at array_le
          omega
        · have object_le := length_le_of_beginObject reads
          simp only at object_le
          omega
    · cases inner : readScalar care cursor.skipBlanks with
      | error fault => simp [inner, Except.map] at reads
      | ok found =>
        obtain ⟨value, last⟩ := found
        simp only [inner, Except.map, Except.ok.injEq] at reads
        have scalar_lt := length_lt_of_readScalar inner
        rw [← reads]
        exact Nat.lt_of_lt_of_le scalar_lt blanks_le

theorem length_le_of_nextItem {care : Care} {stack : List Container} {items : List Value}
    {cursor : Cursor} {next : Progress} (reads : nextItem care stack items cursor = .ok next) :
    next.cursor.rest.length ≤ cursor.rest.length := by
  have blanks_le := cursor.length_skipBlanks_le
  simp only [nextItem] at reads
  split at reads
  · simp only [Except.ok.injEq] at reads
    simpa [← reads] using blanks_le
  · simp at reads
  · split at reads
    · simp at reads
    · simp only [Except.ok.injEq] at reads
      simpa [← reads] using blanks_le

theorem length_le_of_nextMember {care : Care} {stack : List Container}
    {members : List (Text × Value)} {cursor : Cursor} {next : Progress}
    (reads : nextMember care stack members cursor = .ok next) :
    next.cursor.rest.length ≤ cursor.rest.length := by
  have blanks_le := cursor.length_skipBlanks_le
  simp only [nextMember] at reads
  split at reads
  · simp at reads
  · rename_i first rest rest_eq
    rw [rest_eq, List.length_cons] at blanks_le
    split at reads
    · have member_le := length_le_of_beginMember reads
      simp only at member_le
      omega
    · split at reads <;> simp at reads

theorem length_lt_of_afterValue {care : Care} {stack : List Container} {container : Container}
    {value : Value} {cursor : Cursor} {next : Progress}
    (reads : afterValue care stack container value cursor = .ok next) :
    next.cursor.rest.length < cursor.rest.length := by
  have blanks_le := cursor.length_skipBlanks_le
  simp only [afterValue] at reads
  split at reads
  · simp at reads
  · simp at reads
  · rename_i rest_eq
    rw [rest_eq, List.length_cons] at blanks_le
    split at reads
    · simp only [Except.ok.injEq] at reads
      simp only [← reads]
      omega
    · split at reads
      · have item_le := length_le_of_nextItem reads
        simp only at item_le
        omega
      · simp at reads
  · rename_i rest_eq
    rw [rest_eq, List.length_cons] at blanks_le
    split at reads
    · simp only [Except.ok.injEq] at reads
      simp only [← reads]
      omega
    · split at reads
      · have member_le := length_le_of_nextMember reads
        simp only at member_le
        omega
      · simp at reads

/-- Reads on until a value outside of all containers is complete. -/
def readOn (care : Care) (progress : Progress) : Except Fault (Value × Cursor) :=
  match progress with
  | ⟨stack, none, cursor⟩ =>
    match _reads : beginValue care stack cursor with
    | .error fault => .error fault
    | .ok next => readOn care next
  | ⟨[], some value, cursor⟩ => .ok (value, cursor)
  | ⟨container :: stack, some value, cursor⟩ =>
    match _reads : afterValue care stack container value cursor with
    | .error fault => .error fault
    | .ok next => readOn care next
termination_by progress.cursor.rest.length
decreasing_by
  · exact length_lt_of_beginValue _reads
  · exact length_lt_of_afterValue _reads

/-- Reads a value. -/
def readValue (care : Care) (cursor : Cursor) : Except Fault (Value × Cursor) :=
  readOn care ⟨[], none, cursor⟩

theorem length_le_of_readOn {care : Care} {progress : Progress} {value : Value} {next : Cursor}
    (reads : readOn care progress = .ok (value, next)) :
    next.rest.length ≤ progress.cursor.rest.length := by
  fun_induction readOn care progress with
  | case1 => simp at reads
  | case2 stack cursor middle begins ih =>
    exact Nat.le_trans (ih reads) (Nat.le_of_lt (length_lt_of_beginValue begins))
  | case3 last cursor =>
    simp only [Except.ok.injEq, Prod.mk.injEq] at reads
    exact Nat.le_of_eq (reads.2 ▸ rfl)
  | case4 => simp at reads
  | case5 container stack last cursor middle goes ih =>
    exact Nat.le_trans (ih reads) (Nat.le_of_lt (length_lt_of_afterValue goes))

/-- What follows a value is no longer than what the value begins. -/
theorem length_le_of_readValue {care : Care} {cursor next : Cursor} {value : Value}
    (reads : readValue care cursor = .ok (value, next)) : next.rest.length ≤ cursor.rest.length :=
  length_le_of_readOn reads

/-- Makes sure that nothing but blanks follows. -/
def expectEnd (cursor : Cursor) : Except Fault Unit :=
  let last := cursor.skipBlanks
  match last.rest with
  | [] => .ok ()
  | _ :: _ => .error (last.faultBehind .trailingCharacters)

/-- Reads a text as a value. -/
def parse (text : Text) : Except Fault Value := do
  let (value, next) ← readValue .kept (Cursor.start text)
  expectEnd next
  return value

end Stencil.Json
