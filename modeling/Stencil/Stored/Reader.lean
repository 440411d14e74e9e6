import Stencil.Stored.Field
import Stencil.Json.Reader

/-! The reader of stored forms. A form is an object with the fields as members,
or an array of the fields in their order. Members that are no fields are
skipped. -/

namespace Stencil.Stored

open Json

/-- What a value is, when it is not of the wanted kind. -/
def found : Value → Found
  | .null => .null
  | .boolean value => .boolean value
  | .number value => .number value
  | .string value => .string value
  | .array _ => .array
  | .object _ => .object

/-- The fault of a value that is not of the wanted kind. Containers are not
looked into; other values are read, and may be faulty themselves. -/
def wrongType (start : Cursor) (wanted : String) : Fault :=
  if start.rest.head? = some '[' then start.fault (.wrongType .array wanted)
  else if start.rest.head? = some '\x7b' then start.fault (.wrongType .object wanted)
  else
    match readScalar .kept start with
    | .error fault => fault
    | .ok (value, next) => next.fault (.wrongType (found value) wanted)

/-- Reads a text. -/
def readText (cursor : Cursor) : Except Fault (Text × Cursor) :=
  let start := cursor.skipBlanks
  match start.rest with
  | '"' :: rest => readContents .kept ⟨start.offset + 1, rest⟩
  | _ => .error (wrongType start "a string")

/-- Goes to the next element of an array; false means that the array ends here. -/
def nextElement (isFirst : Bool) (cursor : Cursor) : Except Fault (Bool × Cursor) :=
  let start := cursor.skipBlanks
  match start.rest with
  | [] => .error (start.faultBehind .endInArray)
  | mark :: rest =>
    if mark = ']' then .ok (false, start)
    else if isFirst then .ok (true, start)
    else if mark = ',' then
      let next := Cursor.skipBlanks ⟨start.offset + mark.utf8Size, rest⟩
      match next.rest with
      | [] => .error (next.faultBehind .endInValue)
      | first :: _ => if first = ']' then .error (next.faultBehind .trailingComma) else .ok (true, next)
    else .error (start.faultBehind .arrayCommaExpected)

/-- Reads the closing bracket of an array: what is wrong with it, if something
is, and the place where that shows. -/
def closeArray (cursor : Cursor) : Option Fault × Cursor :=
  let last := cursor.skipBlanks
  match last.rest with
  | [] => (some (last.faultBehind .endInArray), last)
  | mark :: rest =>
    let behind : Cursor := ⟨last.offset + mark.utf8Size, rest⟩
    if mark = ']' then (none, behind)
    else if mark = ',' then
      let next := behind.skipBlanks
      if next.rest.head? = some ']' then (some (next.faultBehind .trailingComma), next)
      else (some (next.faultBehind .trailingCharacters), next)
    else (some (last.faultBehind .trailingCharacters), last)

/-- Reads the closing brace of an object, in the same way. -/
def closeObject (cursor : Cursor) : Option Fault × Cursor :=
  let last := cursor.skipBlanks
  match last.rest with
  | [] => (some (last.faultBehind .endInObject), last)
  | mark :: rest =>
    if mark = '\x7d' then (none, ⟨last.offset + mark.utf8Size, rest⟩)
    else if mark = ',' then (some (last.faultBehind .trailingComma), last)
    else (some (last.faultBehind .trailingCharacters), last)

/-- What was read up to a closing bracket or brace. -/
def finish {α : Type} (value : α) (closed : Option Fault × Cursor) : Except Fault (α × Cursor) :=
  match closed with
  | (some fault, _) => .error fault
  | (none, next) => .ok (value, next)

theorem length_lt_of_readText {cursor next : Cursor} {text : Text}
    (reads : readText cursor = .ok (text, next)) : next.rest.length < cursor.rest.length := by
  have blanks_le := cursor.length_skipBlanks_le
  simp only [readText] at reads
  split at reads
  · rename_i rest rest_eq
    have contents_lt := length_lt_of_readContents reads
    simp only [rest_eq, List.length_cons] at *
    omega
  · simp at reads

theorem length_le_of_nextElement {isFirst more : Bool} {cursor next : Cursor}
    (reads : nextElement isFirst cursor = .ok (more, next)) :
    next.rest.length ≤ cursor.rest.length := by
  have blanks_le := cursor.length_skipBlanks_le
  simp only [nextElement] at reads
  split at reads
  · simp at reads
  · rename_i mark rest rest_eq
    have behind_le := Cursor.length_skipBlanks_le ⟨cursor.skipBlanks.offset + mark.utf8Size, rest⟩
    repeat' split at reads
    all_goals simp only [Except.ok.injEq, Prod.mk.injEq, reduceCtorEq] at reads
    · exact reads.2 ▸ blanks_le
    · exact reads.2 ▸ blanks_le
    · rw [rest_eq, List.length_cons] at blanks_le
      simp only [← reads.2]
      simp only at behind_le
      omega

/-- Reads the texts of an array up to its closing bracket. -/
def readElements (isFirst : Bool) (cursor : Cursor) : Except Fault (List Text × Cursor) :=
  match _more : nextElement isFirst cursor with
  | .error fault => .error fault
  | .ok (false, last) => .ok ([], last)
  | .ok (true, start) =>
    match _reads : readText start with
    | .error fault => .error fault
    | .ok (text, next) =>
      (readElements false next).map fun (texts, last) => (text :: texts, last)
termination_by cursor.rest.length
decreasing_by
  have element_le := length_le_of_nextElement _more
  have text_lt := length_lt_of_readText _reads
  omega

/-- Reads an array of texts. -/
def readTexts (cursor : Cursor) : Except Fault (List Text × Cursor) :=
  let start := cursor.skipBlanks
  match start.rest with
  | '[' :: rest =>
    match readElements true ⟨start.offset + 1, rest⟩ with
    | .error fault => .error fault
    | .ok (texts, last) => finish texts (closeArray last)
  | _ => .error (wrongType start "a sequence")

/-- Reads the value of a field into a draft. -/
def readField (draft : Draft) (field : Field) (cursor : Cursor) : Except Fault (Draft × Cursor) :=
  let given := field :: draft.given
  match field with
  | .source =>
    (readText cursor).map fun (text, next) => ({ draft with given, source := text }, next)
  | .macros =>
    (readTexts cursor).map fun (texts, next) =>
      ({ draft with given, config := { draft.config with names := Names.ofList texts } }, next)
  | .startTag =>
    (readText cursor).map fun (text, next) =>
      ({ draft with given, config := { draft.config with startTag := text } }, next)
  | .endTag =>
    (readText cursor).map fun (text, next) =>
      ({ draft with given, config := { draft.config with endTag := text } }, next)

/-- Reads fields as the elements of an array, `index` of which were read before.
The array may end before a field that is not required. An array that is too
short is a fault of the whole array, and is placed behind it. -/
def readFields (form : Form) (draft : Draft) (index : Nat) (cursor : Cursor) :
    List Field → Except Fault (Draft × Cursor)
  | [] => .ok (draft, cursor)
  | field :: fields =>
    match nextElement (index == 0) cursor with
    | .error fault => .error fault
    | .ok (true, start) =>
      match readField draft field start with
      | .error fault => .error fault
      | .ok (draft, next) => readFields form draft (index + 1) next fields
    | .ok (false, last) =>
      if field.isRequired then
        .error ((closeArray last).2.fault (.wrongLength index form.titleOfArray))
      else readFields form draft (index + 1) last fields

/-- Goes to the next member of an object, behind the opening quote of its key;
false means that the object ends here. -/
def nextKey (isFirst : Bool) (cursor : Cursor) : Except Fault (Bool × Cursor) :=
  let start := cursor.skipBlanks
  match start.rest with
  | [] => .error (start.faultBehind .endInObject)
  | mark :: rest =>
    let behind : Cursor := ⟨start.offset + mark.utf8Size, rest⟩
    if mark = '\x7d' then .ok (false, start)
    else if isFirst then
      if mark = '"' then .ok (true, behind) else .error (start.faultBehind .keyNotString)
    else if mark = ',' then
      let next := behind.skipBlanks
      match next.rest with
      | [] => .error (next.faultBehind .endInValue)
      | first :: rest =>
        if first = '"' then .ok (true, ⟨next.offset + first.utf8Size, rest⟩)
        else if first = '\x7d' then .error (next.faultBehind .trailingComma)
        else .error (next.faultBehind .keyNotString)
    else .error (start.faultBehind .objectCommaExpected)

/-- Reads the value of a member into a draft; the value of a member that is no
field is skipped. A field that is given twice is a fault of the whole object,
and is placed where the object should have ended. -/
def readMember (form : Form) (draft : Draft) (key : Text) (cursor : Cursor) :
    Except Fault (Draft × Cursor) :=
  match form.field? key with
  | some field =>
    if draft.given.contains field then
      .error ((closeObject cursor).2.fault (.duplicateField key))
    else
      match readColon cursor with
      | .error fault => .error fault
      | .ok value => readField draft field value
  | none =>
    match readColon cursor with
    | .error fault => .error fault
    | .ok value => (readValue .skipped value).map fun (_, next) => (draft, next)

theorem cursor_of_finish {α : Type} {value result : α} {closed : Option Fault × Cursor}
    {next : Cursor} (finishes : finish value closed = .ok (result, next)) : next = closed.2 := by
  unfold finish at finishes
  split at finishes
  · simp at finishes
  · simp only [Except.ok.injEq, Prod.mk.injEq] at finishes
    exact finishes.2.symm

theorem length_closeArray_le (cursor : Cursor) : (closeArray cursor).2.rest.length ≤ cursor.rest.length := by
  have blanks_le := cursor.length_skipBlanks_le
  simp only [closeArray]
  split
  · exact blanks_le
  · rename_i mark rest rest_eq
    have behind_le := Cursor.length_skipBlanks_le ⟨cursor.skipBlanks.offset + mark.utf8Size, rest⟩
    have rest_lt : rest.length < cursor.rest.length := by
      rw [rest_eq, List.length_cons] at blanks_le
      omega
    repeat' split
    · exact Nat.le_of_lt rest_lt
    · exact Nat.le_of_lt (Nat.lt_of_le_of_lt behind_le rest_lt)
    · exact Nat.le_of_lt (Nat.lt_of_le_of_lt behind_le rest_lt)
    · exact blanks_le

theorem length_le_of_readElements {isFirst : Bool} {cursor next : Cursor} {texts : List Text}
    (reads : readElements isFirst cursor = .ok (texts, next)) :
    next.rest.length ≤ cursor.rest.length := by
  fun_induction readElements isFirst cursor generalizing texts next with
  | case1 => simp at reads
  | case2 isFirst cursor last more =>
    simp only [Except.ok.injEq, Prod.mk.injEq] at reads
    exact reads.2 ▸ length_le_of_nextElement more
  | case3 => simp at reads
  | case4 isFirst cursor start more text middle readsText ih =>
    cases inner : readElements false middle with
    | error fault => simp [inner, Except.map] at reads
    | ok found =>
      obtain ⟨later, last⟩ := found
      simp only [inner, Except.map, Except.ok.injEq, Prod.mk.injEq] at reads
      have element_le := length_le_of_nextElement more
      have text_lt := length_lt_of_readText readsText
      have later_le := ih inner
      rw [← reads.2]
      omega

theorem length_le_of_readTexts {cursor next : Cursor} {texts : List Text}
    (reads : readTexts cursor = .ok (texts, next)) : next.rest.length ≤ cursor.rest.length := by
  have blanks_le := cursor.length_skipBlanks_le
  simp only [readTexts] at reads
  split at reads
  · rename_i rest rest_eq
    rw [rest_eq, List.length_cons] at blanks_le
    split at reads
    · simp at reads
    · rename_i inside last readsElements
      have elements_le := length_le_of_readElements readsElements
      have close_le := length_closeArray_le last
      rw [cursor_of_finish reads]
      simp only at elements_le
      omega
  · simp at reads

theorem length_le_of_readField {draft result : Draft} {field : Field} {cursor next : Cursor}
    (reads : readField draft field cursor = .ok (result, next)) :
    next.rest.length ≤ cursor.rest.length := by
  have text_le : ∀ {change : Text × Cursor → Draft × Cursor},
      (∀ found, (change found).2 = found.2) →
      (readText cursor).map change = .ok (result, next) → next.rest.length ≤ cursor.rest.length := by
    intro change keeps mapped
    cases inner : readText cursor with
    | error fault => simp [inner, Except.map] at mapped
    | ok found =>
      simp only [inner, Except.map, Except.ok.injEq] at mapped
      have same : next = found.2 := by rw [← keeps found, mapped]
      exact Nat.le_of_lt (same ▸ length_lt_of_readText inner)
  cases field with
  | source => exact text_le (fun _ => rfl) reads
  | startTag => exact text_le (fun _ => rfl) reads
  | endTag => exact text_le (fun _ => rfl) reads
  | macros =>
    simp only [readField] at reads
    cases inner : readTexts cursor with
    | error fault => simp [inner, Except.map] at reads
    | ok found =>
      simp only [inner, Except.map, Except.ok.injEq, Prod.mk.injEq] at reads
      exact reads.2 ▸ length_le_of_readTexts inner

theorem length_le_of_nextKey {isFirst more : Bool} {cursor next : Cursor}
    (reads : nextKey isFirst cursor = .ok (more, next)) :
    next.rest.length ≤ cursor.rest.length := by
  have blanks_le := cursor.length_skipBlanks_le
  simp only [nextKey] at reads
  split at reads
  · simp at reads
  · rename_i mark rest rest_eq
    have behind_le := Cursor.length_skipBlanks_le ⟨cursor.skipBlanks.offset + mark.utf8Size, rest⟩
    have rest_lt : rest.length < cursor.rest.length := by
      rw [rest_eq, List.length_cons] at blanks_le
      omega
    repeat' split at reads
    all_goals simp only [Except.ok.injEq, Prod.mk.injEq, reduceCtorEq] at reads
    · exact reads.2 ▸ blanks_le
    · exact Nat.le_of_lt (reads.2 ▸ rest_lt)
    · rename_i first inside inside_eq isQuote
      rw [inside_eq, List.length_cons] at behind_le
      simp only [← reads.2]
      simp only at behind_le
      omega

theorem length_le_of_readMember {form : Form} {draft result : Draft} {key : Text}
    {cursor next : Cursor} (reads : readMember form draft key cursor = .ok (result, next)) :
    next.rest.length ≤ cursor.rest.length := by
  simp only [readMember] at reads
  split at reads
  · split at reads
    · simp at reads
    · split at reads
      · simp at reads
      · rename_i readsColon
        have colon_le := length_le_of_readColon readsColon
        exact Nat.le_trans (length_le_of_readField reads) colon_le
  · split at reads
    · simp at reads
    · rename_i value readsColon
      have colon_le := length_le_of_readColon readsColon
      cases inner : readValue .skipped value with
      | error fault => simp [inner, Except.map] at reads
      | ok skipped =>
        simp only [inner, Except.map, Except.ok.injEq, Prod.mk.injEq] at reads
        exact Nat.le_trans (reads.2 ▸ length_le_of_readValue inner) colon_le

/-- Reads the members of an object up to its closing brace. -/
def readMembers (form : Form) (draft : Draft) (isFirst : Bool) (cursor : Cursor) :
    Except Fault (Draft × Cursor) :=
  match _more : nextKey isFirst cursor with
  | .error fault => .error fault
  | .ok (false, last) => .ok (draft, last)
  | .ok (true, start) =>
    match _reads : readContents .kept start with
    | .error fault => .error fault
    | .ok (key, afterKey) =>
      match _member : readMember form draft key afterKey with
      | .error fault => .error fault
      | .ok (draft, next) => readMembers form draft false next
termination_by cursor.rest.length
decreasing_by
  have key_le := length_le_of_nextKey _more
  have contents_lt := length_lt_of_readContents _reads
  have member_le := length_le_of_readMember _member
  omega

/-- Reads a stored form. A required field that is missing is a fault of the
whole object, and is placed behind it. -/
def readForm (form : Form) (cursor : Cursor) : Except Fault (Draft × Cursor) :=
  let start := cursor.skipBlanks
  match start.rest with
  | '[' :: rest =>
    match readFields form {} 0 ⟨start.offset + 1, rest⟩ form.fields with
    | .error fault => .error fault
    | .ok (draft, last) => finish draft (closeArray last)
  | '\x7b' :: rest =>
    match readMembers form {} true ⟨start.offset + 1, rest⟩ with
    | .error fault => .error fault
    | .ok (draft, last) =>
      match draft.missing? form with
      | some field => .error ((closeObject last).2.fault (.missingField field.name))
      | none => finish draft (closeObject last)
  | _ => .error (wrongType start form.title)

/-- Reads a text as the stored form of a configuration. -/
def configOfText (text : Text) : Except Fault Config := do
  let (draft, next) ← readForm .config (Cursor.start text)
  expectEnd next
  return draft.config

end Stencil.Stored
