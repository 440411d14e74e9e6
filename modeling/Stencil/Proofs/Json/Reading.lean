import Stencil.Json.Reader

/-! What is true of the JSON values that are read. The reader enters containers up
to a limit of levels, and fills them with the values that it completes. So what is
true of the values that are no containers, and of containers as soon as it is true
of what is in them, is true of every value that is read. -/
namespace Stencil.Json

/-- Something that may be said of a value at some level of nesting is inherited if it
holds of the values without others in them that are read there, and of a container
that there is room for if it holds one level further down of all that is in it. -/
structure Inherited (holds : Nat → Value → Prop) : Prop where
  scalar {level : Nat} {cursor next : Cursor} {value : Value} (within : level ≤ depthLimit)
    (reads : readScalar .kept cursor = .ok (value, next)) : holds level value
  array {level : Nat} {items : List Value} (room : level < depthLimit)
    (inside : ∀ item ∈ items, holds (level + 1) item) : holds level (.array items)
  object {level : Nat} {members : List (Text × Value)} (room : level < depthLimit)
    (inside : ∀ member ∈ members, holds (level + 1) member.2) : holds level (.object members)

/-! ### The reader between two tokens -/

/-- It holds of all that a container at some level has in it so far. -/
def Container.Holds (holds : Nat → Value → Prop) (level : Nat) : Container → Prop
  | .array items => ∀ item ∈ items, holds (level + 1) item
  | .object members _ => ∀ member ∈ members, holds (level + 1) member.2

/-- It holds of all that the containers have in them, and there was room for each of them. -/
inductive Stacked (holds : Nat → Value → Prop) : List Container → Prop where
  | outside : Stacked holds []
  | inside {container : Container} {stack : List Container} (room : stack.length < depthLimit)
      (has : container.Holds holds stack.length) (around : Stacked holds stack) : Stacked holds (container :: stack)

/-- It holds of all that the reader has kept so far. -/
structure Progress.Holds (holds : Nat → Value → Prop) (progress : Progress) : Prop where
  stacked : Stacked holds progress.stack
  complete : ∀ value, progress.complete = some value → holds progress.stack.length value

variable {holds : Nat → Value → Prop} {container : Container} {stack : List Container} {cursor next : Cursor}
  {value : Value} {items : List Value} {members : List (Text × Value)} {progress : Progress}

theorem Stacked.length_le (stacked : Stacked holds stack) : stack.length ≤ depthLimit := by
  cases stacked with
  | outside => exact Nat.zero_le _
  | inside room => exact room

namespace Progress.Holds

theorem needing (stacked : Stacked holds stack) : Progress.Holds holds ⟨stack, none, cursor⟩ := ⟨stacked, nofun⟩

theorem completed (stacked : Stacked holds stack) (has : holds stack.length value) :
    Progress.Holds holds ⟨stack, some value, cursor⟩ :=
  ⟨stacked, fun _ same => Option.some.inj same ▸ has⟩

end Progress.Holds

/-! ### Steps -/

theorem ok_of_map {Found Result : Type} {first : Except Fault Found} {change : Found → Result} {result : Result}
    (taken : first.map change = .ok result) : ∃ found, first = .ok found ∧ change found = result := by
  cases first with
  | error fault => cases taken
  | ok found => exact ⟨found, rfl, Except.ok.inj taken⟩

/-- A member is begun in an object with what it has in it so far. -/
theorem Stacked.beginMember (stacked : Stacked holds stack) (room : stack.length < depthLimit)
    (inside : ∀ member ∈ members, holds (stack.length + 1) member.2)
    (begins : beginMember .kept stack members cursor = .ok progress) : progress.Holds holds := by
  obtain ⟨found, _, rfl⟩ := ok_of_map begins
  exact .needing (.inside room inside stacked)

namespace Inherited

/-- An array without items is complete, and any other is entered. -/
theorem beginArray (inherited : Inherited holds) (stacked : Stacked holds stack) (room : stack.length < depthLimit)
    (begins : beginArray stack cursor = .ok progress) : progress.Holds holds := by
  unfold Json.beginArray at begins
  dsimp only at begins
  split at begins
  · cases begins
  · split at begins
    · obtain rfl := Except.ok.inj begins
      exact .completed stacked (inherited.array room (List.forall_mem_nil _))
    · obtain rfl := Except.ok.inj begins
      have has : Container.Holds holds stack.length (.array []) := List.forall_mem_nil _
      exact .needing (.inside room has stacked)

/-- An object without members is complete, and any other is entered with its first key. -/
theorem beginObject (inherited : Inherited holds) (stacked : Stacked holds stack) (room : stack.length < depthLimit)
    (begins : beginObject .kept stack cursor = .ok progress) : progress.Holds holds := by
  unfold Json.beginObject at begins
  dsimp only at begins
  split at begins
  · cases begins
  · split at begins
    · obtain rfl := Except.ok.inj begins
      exact .completed stacked (inherited.object room (List.forall_mem_nil _))
    · split at begins
      · exact stacked.beginMember room (List.forall_mem_nil _) begins
      · cases begins

/-- A value is begun as a container if there is room for it, or read at once. -/
theorem beginValue (inherited : Inherited holds) (stacked : Stacked holds stack)
    (begins : beginValue .kept stack cursor = .ok progress) : progress.Holds holds := by
  unfold Json.beginValue at begins
  dsimp only at begins
  split at begins
  · cases begins
  · split at begins
    · split at begins
      · cases begins
      · rename_i notDeep
        have room : stack.length < depthLimit := Nat.lt_of_not_le fun deep => notDeep ⟨rfl, deep⟩
        split at begins
        · exact inherited.beginArray stacked room begins
        · exact inherited.beginObject stacked room begins
    · obtain ⟨⟨value, last⟩, scalar, rfl⟩ := ok_of_map begins
      exact .completed stacked (inherited.scalar stacked.length_le scalar)

end Inherited

/-- After a comma the array goes on with the items that it has. -/
theorem Stacked.nextItem (stacked : Stacked holds stack) (room : stack.length < depthLimit)
    (inside : ∀ item ∈ items, holds (stack.length + 1) item)
    (goesOn : nextItem .kept stack items cursor = .ok progress) : progress.Holds holds := by
  have has : Container.Holds holds stack.length (.array items) := inside
  have entered : Progress.Holds holds ⟨.array items :: stack, none, cursor.skipBlanks⟩ :=
    .needing (.inside room has stacked)
  unfold Json.nextItem at goesOn
  dsimp only at goesOn
  split at goesOn
  · exact Except.ok.inj goesOn ▸ entered
  · cases goesOn
  · split at goesOn
    · cases goesOn
    · exact Except.ok.inj goesOn ▸ entered

/-- After a comma the object goes on with the members that it has. -/
theorem Stacked.nextMember (stacked : Stacked holds stack) (room : stack.length < depthLimit)
    (inside : ∀ member ∈ members, holds (stack.length + 1) member.2)
    (goesOn : nextMember .kept stack members cursor = .ok progress) : progress.Holds holds := by
  unfold Json.nextMember at goesOn
  dsimp only at goesOn
  split at goesOn
  · cases goesOn
  · split at goesOn
    · exact stacked.beginMember room inside goesOn
    · split at goesOn <;> cases goesOn

namespace Inherited

/-- A value that is complete goes into the container around it, which may be complete with it. -/
theorem afterValue (inherited : Inherited holds) (stacked : Stacked holds (container :: stack))
    (has : holds (container :: stack).length value)
    (goesOn : afterValue .kept stack container value cursor = .ok progress) : progress.Holds holds := by
  obtain _ | ⟨room, inside, around⟩ := stacked
  unfold Json.afterValue at goesOn
  dsimp only at goesOn
  cases container with
  | array items =>
    have longer : ∀ item ∈ value :: items, holds (stack.length + 1) item := List.forall_mem_cons.mpr ⟨has, inside⟩
    cases rest_eq : cursor.skipBlanks.rest with
    | nil => simp [rest_eq] at goesOn
    | cons first rest =>
      simp only [rest_eq] at goesOn
      split at goesOn
      · obtain rfl := Except.ok.inj goesOn
        exact .completed around (inherited.array room fun item member => longer item (List.mem_reverse.mp member))
      · split at goesOn
        · exact around.nextItem room longer goesOn
        · cases goesOn
  | object members key =>
    have more : ∀ member ∈ Table.insert key value members, holds (stack.length + 1) member.2 := by
      intro member found
      rcases Table.mem_of_mem_insert found with rfl | before
      · exact has
      · exact inside member before
    cases rest_eq : cursor.skipBlanks.rest with
    | nil => simp [rest_eq] at goesOn
    | cons first rest =>
      simp only [rest_eq] at goesOn
      split at goesOn
      · obtain rfl := Except.ok.inj goesOn
        exact .completed around (inherited.object room more)
      · split at goesOn
        · exact around.nextMember room more goesOn
        · cases goesOn

/-! ### Whole values -/

/-- What the reader goes on with leads to a value of which it holds outside of all containers. -/
theorem readOn (inherited : Inherited holds) (kept : progress.Holds holds)
    (reads : readOn .kept progress = .ok (value, next)) : holds 0 value := by
  fun_induction Json.readOn .kept progress with
  | case1 stack cursor fault failed => cases reads
  | case2 stack cursor middle begins ih => exact ih (inherited.beginValue kept.stacked begins) reads
  | case3 last cursor =>
    obtain ⟨rfl, _⟩ := Prod.mk.inj (Except.ok.inj reads)
    exact kept.complete _ rfl
  | case4 container stack last cursor fault failed => cases reads
  | case5 container stack last cursor middle goesOn ih =>
    exact ih (inherited.afterValue kept.stacked (kept.complete _ rfl) goesOn) reads

/-- **What is inherited holds of every value that is read.** -/
theorem parse {text : Text} (inherited : Inherited holds) (reads : parse text = .ok value) : holds 0 value := by
  unfold Json.parse at reads
  cases inner : readValue .kept (Cursor.start text) with
  | error fault => simp [inner, bind, Except.bind] at reads
  | ok found =>
    cases ends : expectEnd found.2 with
    | error fault => simp [inner, ends, bind, Except.bind] at reads
    | ok =>
      simp only [inner, ends, bind, Except.bind, pure, Except.pure, Except.ok.injEq] at reads
      exact reads ▸ inherited.readOn (.needing .outside) inner

end Inherited
end Stencil.Json
