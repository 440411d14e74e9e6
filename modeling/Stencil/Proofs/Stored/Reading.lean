import Stencil.Stored.Template
import Stencil.Proofs.Json.StringLiterals

/-! Stored forms are read as what was written. Text that is written without
blanks is read piece by piece: a text, a list of texts, the value of a field,
a member, and then, one after the other, the members of a form. -/
namespace Stencil.Stored

open Json (Cursor Fault Value readContents readColon expectEnd)

/-! ### Texts and lists of texts -/

/-- A string literal is read as its text. -/
theorem readText_literal (text : Text) (offset : Nat) (rest : Text) :
    ∃ last, readText ⟨offset, Json.literal text ++ rest⟩ = .ok (text, ⟨last, rest⟩) := by
  obtain ⟨last, reads⟩ := (Json.spells_escape text).reads (offset + 1) rest
  refine ⟨last, ?_⟩
  have shape : Json.literal text ++ rest = '"' :: (Json.escape text ++ '"' :: rest) := by simp [Json.literal]
  rw [shape]
  exact reads

/-- An element and those after it are the elements from there on. -/
theorem readElements_next {isFirst : Bool} {cursor start next last : Cursor} {text : Text} {texts : List Text}
    (more : nextElement isFirst cursor = .ok (true, start)) (reads : readText start = .ok (text, next))
    (later : readElements false next = .ok (texts, last)) :
    readElements isFirst cursor = .ok (text :: texts, last) := by
  rw [readElements]
  split
  · rename_i failed
    rw [more] at failed
    cases failed
  · rename_i stops
    rw [more] at stops
    cases stops
  · rename_i goes
    rw [more] at goes
    obtain ⟨_, rfl⟩ := Prod.mk.inj (Except.ok.inj goes)
    split
    · rename_i failed
      rw [reads] at failed
      cases failed
    · rename_i read
      rw [reads] at read
      obtain ⟨rfl, rfl⟩ := Prod.mk.inj (Except.ok.inj read)
      rw [later]
      rfl

/-- The texts of a list after the first, each after a comma, are read up to the closing bracket. -/
theorem readElements_textOfItems (texts : List Text) (offset : Nat) (rest : Text) :
    ∃ last, readElements false ⟨offset, Value.textOfItems (texts.map .string) ++ ']' :: rest⟩ =
      .ok (texts, ⟨last, ']' :: rest⟩) := by
  induction texts generalizing offset with
  | nil =>
    refine ⟨offset, ?_⟩
    rw [readElements]
    rfl
  | cons text texts ih =>
    let later := Value.textOfItems (texts.map .string) ++ ']' :: rest
    obtain ⟨middle, reads⟩ := readText_literal text (offset + 1) later
    obtain ⟨last, inner⟩ := ih middle
    have shape : Value.textOfItems ((text :: texts).map .string) ++ ']' :: rest =
        ',' :: (Json.literal text ++ later) := by
      simp [Value.textOfItems, Value.text, later]
    have more : nextElement false ⟨offset, ',' :: (Json.literal text ++ later)⟩ =
        .ok (true, ⟨offset + 1, Json.literal text ++ later⟩) := rfl
    refine ⟨last, ?_⟩
    rw [shape]
    exact readElements_next more reads inner

/-- A list is read as its elements up to the closing bracket. -/
theorem readTexts_bracket {offset : Nat} {inside : Text} {texts : List Text} {last : Cursor}
    (reads : readElements true ⟨offset + 1, inside⟩ = .ok (texts, last)) :
    readTexts ⟨offset, '[' :: inside⟩ = finish texts (closeArray last) := by
  have here : Cursor.skipBlanks ⟨offset, '[' :: inside⟩ = ⟨offset, '[' :: inside⟩ := rfl
  simp only [readTexts, here, reads]

/-- A list of texts is read as the texts. -/
theorem readTexts_array (texts : List Text) (offset : Nat) (rest : Text) :
    ∃ last, readTexts ⟨offset, Value.text (.array (texts.map .string)) ++ rest⟩ = .ok (texts, ⟨last, rest⟩) := by
  have elements : ∃ inside last, Value.text (.array (texts.map .string)) ++ rest = '[' :: inside ∧
      readElements true ⟨offset + 1, inside⟩ = .ok (texts, ⟨last, ']' :: rest⟩) := by
    cases texts with
    | nil =>
      refine ⟨']' :: rest, offset + 1, rfl, ?_⟩
      rw [readElements]
      rfl
    | cons text texts =>
      let later := Value.textOfItems (texts.map .string) ++ ']' :: rest
      obtain ⟨middle, reads⟩ := readText_literal text (offset + 1) later
      obtain ⟨last, inner⟩ := readElements_textOfItems texts middle rest
      refine ⟨Json.literal text ++ later, last, ?_, readElements_next rfl reads inner⟩
      simp [Value.text, later]
  obtain ⟨inside, last, shape, reads⟩ := elements
  refine ⟨last + 1, ?_⟩
  rw [shape, readTexts_bracket reads]
  rfl

/-! ### Members -/

/-- A field with what is stored of it. -/
inductive Entry where
  | source (text : Text)
  | macros (names : List Text)
  | startTag (tag : Text)
  | endTag (tag : Text)

namespace Entry

/-- The field of an entry. -/
def field : Entry → Field
  | .source _ => .source
  | .macros _ => .macros
  | .startTag _ => .startTag
  | .endTag _ => .endTag

/-- The value of an entry, as it is written. -/
def value : Entry → Value
  | .source text | .startTag text | .endTag text => .string text
  | .macros names => .array (names.map .string)

/-- What is known of a form after an entry was read. -/
def fill (draft : Draft) : Entry → Draft
  | .source text => { draft with given := .source :: draft.given, source := text }
  | .macros names =>
    { draft with given := .macros :: draft.given, config := { draft.config with names := Names.ofList names } }
  | .startTag tag => { draft with given := .startTag :: draft.given, config := { draft.config with startTag := tag } }
  | .endTag tag => { draft with given := .endTag :: draft.given, config := { draft.config with endTag := tag } }

end Entry

/-- The text of a form with the given entries. -/
def formText (entries : List Entry) : Text :=
  (Value.object (entries.map fun entry => (entry.field.name, entry.value))).text

/-- The value of an entry is read into the draft. -/
theorem readField_entry (draft : Draft) (entry : Entry) (offset : Nat) (rest : Text) :
    ∃ last, readField draft entry.field ⟨offset, entry.value.text ++ rest⟩ = .ok (entry.fill draft, ⟨last, rest⟩) := by
  cases entry with
  | source text | startTag text | endTag text =>
    obtain ⟨last, reads⟩ := readText_literal text offset rest
    refine ⟨last, ?_⟩
    simp only [Entry.field, Entry.value, Value.text, readField, reads]
    rfl
  | macros names =>
    obtain ⟨last, reads⟩ := readTexts_array names offset rest
    refine ⟨last, ?_⟩
    simp only [Entry.field, Entry.value, readField, reads]
    rfl

/-- The names of the fields of a form are different. -/
theorem field?_name {form : Form} {field : Field} (known : field ∈ form.fields) :
    form.field? field.name = some field := by
  revert known
  cases form <;> cases field <;> decide

/-- A member with a field that was not given before is read into the draft. -/
theorem readMember_entry {form : Form} {draft : Draft} {entry : Entry} (known : entry.field ∈ form.fields)
    (new : entry.field ∉ draft.given) (offset : Nat) (rest : Text) :
    ∃ last, readMember form draft entry.field.name ⟨offset, ':' :: entry.value.text ++ rest⟩ =
      .ok (entry.fill draft, ⟨last, rest⟩) := by
  obtain ⟨last, reads⟩ := readField_entry draft entry (offset + 1) rest
  have unseen : ¬ draft.given.contains entry.field = true := by simpa using new
  have colon : readColon ⟨offset, ':' :: entry.value.text ++ rest⟩ = .ok ⟨offset + 1, entry.value.text ++ rest⟩ := rfl
  refine ⟨last, ?_⟩
  simp only [readMember, field?_name known, if_neg unseen, colon, reads]

/-- A member and those after it are the members from there on. -/
theorem readMembers_next {form : Form} {draft filled : Draft} {isFirst : Bool} {cursor start afterKey next : Cursor}
    {key : Text} (more : nextKey isFirst cursor = .ok (true, start))
    (name : readContents .kept start = .ok (key, afterKey))
    (member : readMember form draft key afterKey = .ok (filled, next)) :
    readMembers form draft isFirst cursor = readMembers form filled false next := by
  rw [readMembers]
  split
  · rename_i failed
    rw [more] at failed
    cases failed
  · rename_i stops
    rw [more] at stops
    cases stops
  · rename_i goes
    rw [more] at goes
    obtain ⟨_, rfl⟩ := Prod.mk.inj (Except.ok.inj goes)
    split
    · rename_i failed
      rw [name] at failed
      cases failed
    · rename_i read
      rw [name] at read
      obtain ⟨rfl, rfl⟩ := Prod.mk.inj (Except.ok.inj read)
      split
      · rename_i failed
        rw [member] at failed
        cases failed
      · rename_i read
        rw [member] at read
        obtain ⟨rfl, rfl⟩ := Prod.mk.inj (Except.ok.inj read)
        rfl

/-- The members of the entries after the first, each after a comma. -/
def membersText (entries : List Entry) : Text :=
  Value.textOfMembers (entries.map fun entry => (entry.field.name, entry.value))

/-- One entry is read into the draft, and the others are left. -/
theorem readMembers_entry {form : Form} {draft : Draft} {entry : Entry} {isFirst : Bool} {cursor : Cursor}
    {offset : Nat} (known : entry.field ∈ form.fields) (new : entry.field ∉ draft.given) (rest : Text)
    (more : nextKey isFirst cursor =
      .ok (true, ⟨offset, Json.escape entry.field.name ++ '"' :: ':' :: entry.value.text ++ rest⟩)) :
    ∃ last, readMembers form draft isFirst cursor = readMembers form (entry.fill draft) false ⟨last, rest⟩ := by
  obtain ⟨middle, name⟩ := (Json.spells_escape entry.field.name).reads offset (':' :: entry.value.text ++ rest)
  obtain ⟨last, member⟩ := readMember_entry known new middle rest
  refine ⟨last, readMembers_next more ?_ member⟩
  simpa using name

/-- Entries with different fields that were not given before. -/
def AreNew (form : Form) (draft : Draft) (entries : List Entry) : Prop :=
  (∀ entry ∈ entries, entry.field ∈ form.fields ∧ entry.field ∉ draft.given) ∧ (entries.map Entry.field).Nodup

theorem Entry.given_fill (draft : Draft) (entry : Entry) :
    (entry.fill draft).given = entry.field :: draft.given := by
  cases entry <;> rfl

/-- After an entry was read, those behind it are still new. -/
theorem AreNew.tail {form : Form} {draft : Draft} {entry : Entry} {entries : List Entry}
    (new : AreNew form draft (entry :: entries)) : AreNew form (entry.fill draft) entries := by
  obtain ⟨known, different⟩ := new
  rw [List.map_cons, List.nodup_cons] at different
  refine ⟨fun other member => ?_, different.2⟩
  obtain ⟨isField, unseen⟩ := known other (List.mem_cons_of_mem entry member)
  refine ⟨isField, ?_⟩
  rw [entry.given_fill, List.mem_cons]
  rintro (same | seen)
  · exact different.1 (same ▸ List.mem_map_of_mem member)
  · exact unseen seen

/-- The entries of a form, one after the other, are read up to the closing brace. -/
theorem readMembers_entries {form : Form} {draft : Draft} {entries : List Entry} (new : AreNew form draft entries)
    (offset : Nat) (rest : Text) :
    ∃ last, readMembers form draft false ⟨offset, membersText entries ++ '\x7d' :: rest⟩ =
      .ok (entries.foldl Entry.fill draft, ⟨last, '\x7d' :: rest⟩) := by
  induction entries generalizing draft offset with
  | nil =>
    refine ⟨offset, ?_⟩
    rw [readMembers]
    rfl
  | cons entry entries ih =>
    obtain ⟨known, unseen⟩ := new.1 entry (List.mem_cons_self ..)
    have shape : membersText (entry :: entries) ++ '\x7d' :: rest =
        ',' :: '"' :: (Json.escape entry.field.name ++ '"' :: ':' :: entry.value.text ++
          (membersText entries ++ '\x7d' :: rest)) := by
      simp [membersText, Value.textOfMembers, Json.literal]
    have more (inside : Text) : nextKey false ⟨offset, ',' :: '"' :: inside⟩ = .ok (true, ⟨offset + 1 + 1, inside⟩) := rfl
    rw [shape]
    obtain ⟨middle, first⟩ := readMembers_entry known unseen (membersText entries ++ '\x7d' :: rest) (more _)
    obtain ⟨last, later⟩ := ih new.tail middle
    exact ⟨last, first.trans later⟩

/-- A form is an object with its entries as members. -/
theorem formText_cons (entry : Entry) (entries : List Entry) :
    formText (entry :: entries) =
      '\x7b' :: '"' :: (Json.escape entry.field.name ++ '"' :: ':' :: entry.value.text ++
        (membersText entries ++ ['\x7d'])) := by
  simp [formText, Value.text, membersText, Json.literal]

/-- **A form is read as its entries.** When no required field is missing, the
entries of a form fill the draft one after the other, and nothing is left of the text. -/
theorem readForm_formText {form : Form} {entries : List Entry} (new : AreNew form {} entries)
    (complete : (entries.foldl Entry.fill {}).missing? form = none) :
    ∃ last, readForm form (Cursor.start (formText entries)) = .ok (entries.foldl Entry.fill {}, ⟨last, []⟩) := by
  have members : ∃ inside last, formText entries = '\x7b' :: inside ∧
      readMembers form {} true ⟨1, inside⟩ = .ok (entries.foldl Entry.fill {}, ⟨last, ['\x7d']⟩) := by
    cases entries with
    | nil =>
      refine ⟨['\x7d'], 1, rfl, ?_⟩
      rw [readMembers]
      rfl
    | cons entry entries =>
      obtain ⟨known, unseen⟩ := new.1 entry (List.mem_cons_self ..)
      have more (inside : Text) : nextKey true ⟨1, '"' :: inside⟩ = .ok (true, ⟨2, inside⟩) := rfl
      obtain ⟨middle, first⟩ := readMembers_entry known unseen (membersText entries ++ ['\x7d']) (more _)
      obtain ⟨last, later⟩ := readMembers_entries new.tail middle []
      exact ⟨_, last, formText_cons entry entries, first.trans later⟩
  obtain ⟨inside, last, shape, reads⟩ := members
  have here : (Cursor.start ('\x7b' :: inside)).skipBlanks = ⟨0, '\x7b' :: inside⟩ := rfl
  refine ⟨last + 1, ?_⟩
  rw [shape]
  simp only [readForm, here, Nat.zero_add, reads, complete]
  rfl

end Stencil.Stored
