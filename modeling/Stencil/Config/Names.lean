import Stencil.Text.Basic

/-! The known macro names, in the order in which they are tried: longer names
first, and names of one length in character order. A set of names has one such
list only, so the order in which names are given, and how often, never
matters. -/

namespace Stencil

/-- One name is tried before another if it has more bytes, or as many bytes
and comes first in character order. -/
def Text.TriedBefore (left right : Text) : Prop :=
  Text.size right < Text.size left ∨ Text.size left = Text.size right ∧ left < right

instance (left right : Text) : Decidable (Text.TriedBefore left right) :=
  inferInstanceAs (Decidable (_ ∨ _))

theorem Text.TriedBefore.trans {first second third : Text}
    (earlier : Text.TriedBefore first second) (later : Text.TriedBefore second third) :
    Text.TriedBefore first third := by
  rcases earlier with longer | ⟨size_eq, less⟩ <;> rcases later with longer' | ⟨size_eq', less'⟩
  · exact .inl (Nat.lt_trans longer' longer)
  · exact .inl (size_eq' ▸ longer)
  · exact .inl (size_eq ▸ longer')
  · exact .inr ⟨size_eq.trans size_eq', List.lt_trans less less'⟩

theorem Text.TriedBefore.irrefl (name : Text) : ¬ Text.TriedBefore name name := by
  rintro (longer | ⟨_, less⟩)
  · exact Nat.lt_irrefl _ longer
  · exact List.lt_irrefl name less

/-- Of two names, one is tried before the other unless they are the same. -/
theorem Text.TriedBefore.trichotomy (left right : Text) :
    Text.TriedBefore left right ∨ left = right ∨ Text.TriedBefore right left := by
  rcases Nat.lt_trichotomy (Text.size left) (Text.size right) with shorter | size_eq | longer
  · exact .inr (.inr (.inl shorter))
  · by_cases less : left < right
    · exact .inl (.inr ⟨size_eq, less⟩)
    · by_cases greater : right < left
      · exact .inr (.inr (.inr ⟨size_eq.symm, greater⟩))
      · exact .inr (.inl (List.le_antisymm greater less))
  · exact .inl (.inl longer)

/-- A set of macro names, listed in the order in which they are tried. The
empty text is no name. -/
structure Names where
  toList : List Text
  sorted : toList.Pairwise Text.TriedBefore
  nonempty : ∀ name ∈ toList, name ≠ []
deriving DecidableEq

namespace Names

/-- Puts a name in its place in a list of names, unless it is there already. -/
def insertSorted (name : Text) : List Text → List Text
  | [] => [name]
  | first :: rest =>
    if name = first then first :: rest
    else if Text.TriedBefore name first then name :: first :: rest
    else first :: insertSorted name rest

theorem mem_insertSorted {name probe : Text} {names : List Text} :
    probe ∈ insertSorted name names ↔ probe = name ∨ probe ∈ names := by
  induction names with
  | nil => simp [insertSorted]
  | cons first rest ih =>
    simp only [insertSorted]
    split
    · simp_all
    · split
      · simp
      · simp only [List.mem_cons, ih]
        exact or_left_comm

theorem insertSorted_sorted (name : Text) {names : List Text}
    (sorted : names.Pairwise Text.TriedBefore) :
    (insertSorted name names).Pairwise Text.TriedBefore := by
  induction names with
  | nil => simp [insertSorted]
  | cons first rest ih =>
    obtain ⟨firstBefore, restSorted⟩ := List.pairwise_cons.mp sorted
    simp only [insertSorted]
    split
    · exact sorted
    · rename_i different
      split
      · rename_i nameFirst
        refine List.pairwise_cons.mpr ⟨?_, sorted⟩
        intro probe member
        rcases List.mem_cons.mp member with rfl | inRest
        · exact nameFirst
        · exact nameFirst.trans (firstBefore probe inRest)
      · rename_i notBefore
        refine List.pairwise_cons.mpr ⟨?_, ih restSorted⟩
        intro probe member
        rcases mem_insertSorted.mp member with rfl | inRest
        · rcases Text.TriedBefore.trichotomy probe first with before | same | after
          · exact absurd before notBefore
          · exact absurd same different
          · exact after
        · exact firstBefore probe inRest

/-- No names. -/
def empty : Names := ⟨[], .nil, by simp⟩

/-- Adds a name; the empty text is left out. -/
def insert (names : Names) (name : Text) : Names :=
  if present : name = [] then names
  else
    { toList := insertSorted name names.toList
      sorted := insertSorted_sorted name names.sorted
      nonempty := by
        intro probe member
        rcases mem_insertSorted.mp member with rfl | known
        · exact present
        · exact names.nonempty probe known }

/-- The names of a list, each once and in the order in which they are tried. -/
def ofList (names : List Text) : Names := names.foldl insert empty

/-- No name is empty. -/
theorem size_pos {names : Names} {name : Text} (known : name ∈ names.toList) : 0 < Text.size name := by
  apply Nat.pos_of_ne_zero
  intro empty
  exact names.nonempty name known (Text.size_eq_zero_iff.mp empty)

/-- Whether a text is one of the names. -/
def contains (names : Names) (name : Text) : Bool := names.toList.contains name

theorem mem_insert {names : Names} {name probe : Text} :
    probe ∈ (names.insert name).toList ↔ (probe = name ∧ name ≠ []) ∨ probe ∈ names.toList := by
  by_cases empty : name = []
  · simp [insert, empty]
  · simp [insert, empty, mem_insertSorted]

/-- The names made from a list are its members other than the empty text. -/
theorem mem_ofList {given : List Text} {probe : Text} :
    probe ∈ (ofList given).toList ↔ probe ∈ given ∧ probe ≠ [] := by
  suffices folded : ∀ names : Names, probe ∈ (given.foldl insert names).toList ↔
      (probe ∈ given ∧ probe ≠ []) ∨ probe ∈ names.toList by
    simpa [ofList, empty] using folded empty
  induction given with
  | nil => simp
  | cons name given ih =>
    intro names
    rw [List.foldl_cons, ih, mem_insert, List.mem_cons]
    constructor
    · rintro (⟨member, present⟩ | ⟨rfl, present⟩ | known)
      · exact .inl ⟨.inr member, present⟩
      · exact .inl ⟨.inl rfl, present⟩
      · exact .inr known
    · rintro (⟨rfl | member, present⟩ | known)
      · exact .inr (.inl ⟨rfl, present⟩)
      · exact .inl ⟨member, present⟩
      · exact .inr (.inr known)

end Names
end Stencil
