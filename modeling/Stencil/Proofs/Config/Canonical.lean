import Stencil.Config.Arrangement
import Stencil.Proofs.Config.Names
import Stencil.Proofs.Text.Bytes
import Stencil.Template.Basic

/-! A set of names is told by its members. Sorting the names that are not empty
and leaving out every name that equals the one before it gives the list of the
set, because names tie in the sorting order only if they are equal: equal names
end up side by side. So it makes no difference in which order names are given
and how often, for the set, for the configuration and for what is compiled with it. -/
namespace Stencil

variable {left right : Text} {given other : List Text} {name : Text}

/-- A name comes first in sorting when it is tried first. -/
theorem Text.tryOrder_eq_lt_iff : Text.tryOrder left right = .lt ↔ Text.TriedBefore left right := by
  rw [tryOrder, Ordering.then_eq_lt, Nat.compare_eq_lt, Nat.compare_eq_eq, compareOfLessAndEq_eq_lt,
    Text.bytes_lt_bytes_iff, eq_comm]
  rfl

/-- Only equal names tie. -/
theorem Text.tryOrder_eq_eq_iff : Text.tryOrder left right = .eq ↔ left = right := by
  have bytes_eq : compareOfLessAndEq left.bytes right.bytes = .eq ↔ left.bytes = right.bytes :=
    compareOfLessAndEq_eq_eq (fun bytes => List.le_refl bytes) List.not_le
  rw [tryOrder, Ordering.then_eq_eq, bytes_eq]
  constructor
  · rintro ⟨_, same⟩
    exact Text.bytes_injective same
  · rintro rfl
    exact ⟨Nat.compare_eq_eq.mpr rfl, rfl⟩

theorem Text.tryOrder_ne_gt_iff :
    (Text.tryOrder left right != .gt) = true ↔ Text.TriedBefore left right ∨ left = right := by
  rw [← tryOrder_eq_lt_iff, ← tryOrder_eq_eq_iff]
  cases Text.tryOrder left right <;> decide

/-- One name is tried before another or is the same. -/
def Text.NotAfter (left right : Text) : Prop := Text.TriedBefore left right ∨ left = right

instance : Std.Antisymm Text.NotAfter where
  antisymm left right before after := by
    rcases before with before | same
    · rcases after with after | same
      · exact absurd (before.trans after) (Text.TriedBefore.irrefl left)
      · exact same.symm
    · exact same

namespace Names

theorem mem_arranged : name ∈ arranged given ↔ name ∈ given ∧ name ≠ [] := by
  simp [arranged, List.mem_mergeSort]

/-- Sorting leaves no name in front of one that is tried before it. -/
theorem pairwise_arranged (given : List Text) : (arranged given).Pairwise Text.NotAfter := by
  have transitive (first second third : Text) (before : (Text.tryOrder first second != .gt) = true)
      (after : (Text.tryOrder second third != .gt) = true) : (Text.tryOrder first third != .gt) = true := by
    rw [Text.tryOrder_ne_gt_iff] at before after ⊢
    rcases before with before | rfl
    · rcases after with after | rfl
      · exact .inl (before.trans after)
      · exact .inl before
    · exact after
  have total (left right : Text) : (Text.tryOrder left right != .gt || Text.tryOrder right left != .gt) = true := by
    rw [Bool.or_eq_true, Text.tryOrder_ne_gt_iff, Text.tryOrder_ne_gt_iff]
    rcases Text.TriedBefore.trichotomy left right with before | same | after
    · exact .inl (.inl before)
    · exact .inl (.inr same)
    · exact .inr (.inl after)
  exact (List.pairwise_mergeSort transitive total _).imp Text.tryOrder_ne_gt_iff.mp

/-- Equal names stand side by side after sorting, so no name is left twice. -/
theorem arrangedOnce_eq_dedup (given : List Text) : arrangedOnce given = (arranged given).dedup :=
  (pairwise_arranged given).destutter_eq_dedup

theorem mem_arrangedOnce : name ∈ arrangedOnce given ↔ name ∈ given ∧ name ≠ [] := by
  rw [arrangedOnce_eq_dedup, List.mem_dedup, mem_arranged]

/-- The sorted names follow each other strictly. -/
theorem pairwise_arrangedOnce (given : List Text) : (arrangedOnce given).Pairwise Text.TriedBefore := by
  rw [arrangedOnce_eq_dedup]
  have inOrder := (pairwise_arranged given).sublist (List.dedup_sublist _)
  refine (inOrder.and (List.nodup_dedup _)).imp ?_
  rintro left right ⟨before | same, different⟩
  · exact before
  · exact absurd same different

/-- The list of a set is made by sorting and leaving out repetitions. -/
theorem toList_ofList (given : List Text) : (ofList given).toList = arrangedOnce given := by
  refine (ofList given).sorted.eq_of_mem_iff (pairwise_arrangedOnce given) fun name => ?_
  rw [mem_ofList, mem_arrangedOnce]

/-- Only which names are given makes a difference. -/
theorem ofList_congr (same : ∀ name, name ≠ [] → (name ∈ given ↔ name ∈ other)) : ofList given = ofList other := by
  apply eq_of_mem_iff
  intro name
  rw [mem_ofList, mem_ofList]
  exact and_congr_left fun present => same name present

/-- **A set of names is canonical.** The set made of a list is the list of its names
that are not empty, sorted and without repetitions: each is there once, longer
ones before shorter ones and those of one length in character order. It contains
a name if and only if the list does, and never the empty one, and it is made again
of its own list. Two lists with the same names make the same set, the same
configuration, and with every source and base the same template or the same error. -/
theorem names_canonical :
    (∀ given : List Text, (ofList given).toList = arrangedOnce given ∧
      (∀ name, name ∈ (ofList given).toList ↔ name ∈ given ∧ name ≠ []) ∧ (ofList given).toList.Nodup ∧
      (ofList given).toList.Pairwise (fun left right =>
        Text.size right < Text.size left ∨ Text.size left = Text.size right ∧ left < right) ∧
      (∀ name, name ≠ [] → ((ofList given).contains name = true ↔ name ∈ given)) ∧
      (ofList given).contains [] = false ∧ ofList (ofList given).toList = ofList given) ∧
    ∀ given other : List Text, (∀ name, name ≠ [] → (name ∈ given ↔ name ∈ other)) →
      ofList given = ofList other ∧ ∀ startTag endTag,
        Config.mk (ofList given) startTag endTag = Config.mk (ofList other) startTag endTag ∧ ∀ source base,
          Template.compile (Config.mk (ofList given) startTag endTag) source base =
            Template.compile (Config.mk (ofList other) startTag endTag) source base := by
  refine ⟨fun given => ?_, fun given other same => ?_⟩
  · have contains_iff (name : Text) : (ofList given).contains name = true ↔ name ∈ given ∧ name ≠ [] := by
      rw [contains, List.contains_iff_mem, mem_ofList]
    have inOrder := (ofList given).sorted
    refine ⟨toList_ofList given, fun name => mem_ofList, ?_, inOrder, fun name present => ?_, ?_, ofList_toList _⟩
    · rw [toList_ofList, arrangedOnce_eq_dedup]
      exact List.nodup_dedup _
    · rw [contains_iff]
      exact and_iff_left present
    · rw [← Bool.not_eq_true, contains_iff]
      exact fun known => known.2 rfl
  · have names_eq := ofList_congr same
    refine ⟨names_eq, fun startTag endTag => ?_⟩
    rw [names_eq]
    exact ⟨rfl, fun source base => rfl⟩

/-- Two names, one of them twice and in another order beside the empty one, make the same set. -/
theorem ofList_repeated : ofList [['a'], ['a', 'b']] = ofList [['a', 'b'], [], ['a'], ['a', 'b']] := by
  refine (names_canonical.2 _ _ fun name present => ?_).1
  simp only [List.mem_cons, List.not_mem_nil, or_false, present, false_or]
  tauto

end Names
end Stencil
