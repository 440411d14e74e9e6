import Mathlib.Data.List.Sort
import Stencil.Config.Names

/-! Sets of names as lists. Two sets with the same members are the same list,
because the order in which names are tried puts them in one order only; so
reading the names of a set back from its list gives the set again. -/
namespace Stencil.Names

instance : Std.Asymm Text.TriedBefore where
  asymm left _ earlier later := Text.TriedBefore.irrefl left (earlier.trans later)

/-- Sets with the same members are equal. -/
theorem eq_of_mem_iff {left right : Names} (same : ∀ name, name ∈ left.toList ↔ name ∈ right.toList) :
    left = right := by
  have lists : left.toList = right.toList := left.sorted.eq_of_mem_iff right.sorted same
  obtain ⟨names, sorted, nonempty⟩ := left
  obtain ⟨names', sorted', nonempty'⟩ := right
  obtain rfl : names = names' := lists
  rfl

/-- The list of a set is a list of the set. -/
theorem ofList_toList (names : Names) : ofList names.toList = names := by
  apply eq_of_mem_iff
  intro name
  rw [mem_ofList]
  exact ⟨fun known => known.1, fun member => ⟨member, names.nonempty name member⟩⟩

end Stencil.Names
