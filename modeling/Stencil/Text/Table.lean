import Stencil.Text.Basic

/-! Tables: things by name. A name has one entry, and the entries stand in the
order of the names, so a table does not tell in which order it was filled. -/

namespace Stencil.Table

/-- Gives a name an entry, in place of the one that it may have. -/
def insert {α : Type} (name : Text) (entry : α) : List (Text × α) → List (Text × α)
  | [] => [(name, entry)]
  | (first, old) :: rest =>
    if name = first then (name, entry) :: rest
    else if name < first then (name, entry) :: (first, old) :: rest
    else (first, old) :: insert name entry rest

/-- Takes the entry of a name away. -/
def erase {α : Type} (name : Text) (table : List (Text × α)) : List (Text × α) :=
  table.filter fun entry => entry.1 != name

theorem lookup_cons {α : Type} (name probe : Text) (entry : α) (rest : List (Text × α)) :
    ((name, entry) :: rest).lookup probe = if probe = name then some entry else rest.lookup probe := by
  rw [List.lookup_cons]
  by_cases same : probe = name
  · simp [same]
  · simp [same, beq_eq_false_iff_ne.mpr same]

/-- What is in a table after a name was given an entry is this entry, or was there before. -/
theorem mem_of_mem_insert {α : Type} {name : Text} {entry : α} {table : List (Text × α)} {found : Text × α}
    (member : found ∈ insert name entry table) : found = (name, entry) ∨ found ∈ table := by
  induction table with
  | nil => exact .inl (List.mem_singleton.mp member)
  | cons head rest ih =>
    rw [insert] at member
    split at member
    · rcases List.mem_cons.mp member with here | later
      · exact .inl here
      · exact .inr (List.mem_cons_of_mem head later)
    · split at member
      · exact List.mem_cons.mp member
      · rcases List.mem_cons.mp member with here | later
        · exact .inr (here ▸ List.mem_cons_self)
        · exact (ih later).imp_right (List.mem_cons_of_mem head)

/-- A name that was given an entry has this entry, and all others have theirs. -/
theorem lookup_insert {α : Type} (name probe : Text) (entry : α) (table : List (Text × α)) :
    (insert name entry table).lookup probe = if probe = name then some entry else table.lookup probe := by
  induction table with
  | nil => rw [insert, lookup_cons]
  | cons head rest ih =>
    obtain ⟨first, old⟩ := head
    simp only [insert]
    split
    · rename_i replaced
      rw [lookup_cons, lookup_cons, replaced]
      split <;> rfl
    · rename_i different
      split
      · rw [lookup_cons]
      · rw [lookup_cons, lookup_cons, ih]
        by_cases here : probe = first
        · simp [here, Ne.symm different]
        · simp [here]

/-- A name whose entry was taken away has none, and all others have theirs. -/
theorem lookup_erase {α : Type} (name probe : Text) (table : List (Text × α)) :
    (erase name table).lookup probe = if probe = name then none else table.lookup probe := by
  induction table with
  | nil => simp [erase]
  | cons head rest ih =>
    obtain ⟨first, old⟩ := head
    rw [erase] at ih
    rw [erase, List.filter_cons, lookup_cons]
    by_cases taken : first = name
    · rw [if_neg (by simp [taken]), ih, taken]
      split <;> rfl
    · rw [if_pos (by simp [taken]), lookup_cons, ih]
      by_cases here : probe = first
      · simp [here, taken]
      · simp [here]

end Stencil.Table
