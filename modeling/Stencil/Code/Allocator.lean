import Stencil.Code.Supply

/-! Allocators of codes. The base of an allocator is searched for in a loop, with
the numbers of a generator, and each call gives out the next code of the base. -/

namespace Stencil

/-! ### The search for a base -/

/-- The search for a base between two turns: the numbers that were drawn so far,
in their order, and the base if one was taken. -/
structure Search where
  drawn : List Nat := []
  base? : Option Nat := none
deriving DecidableEq, Repr

namespace Search

/-- One turn of the search: the next number is drawn, and taken if it fits. Once
there is a base, nothing is drawn any more. -/
def turn (text : Text) (numbers : Nat → Nat) (search : Search) : Search :=
  match search.base? with
  | some _ => search
  | none =>
    let candidate := numbers search.drawn.length
    { drawn := search.drawn ++ [candidate]
      base? := if Supply.fits text candidate then some candidate else none }

/-- The search after some turns, with a generator whose calls give these numbers one after the other. -/
def after (text : Text) (numbers : Nat → Nat) : (turns : Nat) → Search
  | 0 => {}
  | turns + 1 => (after text numbers turns).turn text numbers

end Search

/-- The numbers of a queue, and then those of a generator. -/
def queuedBefore (queue : List Nat) (numbers : Nat → Nat) (index : Nat) : Nat :=
  queue.getD index (numbers (index - queue.length))

/-! ### Calls -/

/-- What gives out the codes of one template: their base, and how many of them were given out. -/
structure Allocator where
  base : Nat
  next : Nat
deriving DecidableEq

namespace Allocator

/-- The allocator for a text: it has the first fitting base of the supply, and
no code was given out. -/
def ofSupply (text : Text) (supply : Supply) : Allocator := ⟨(Supply.draw text supply).base, 0⟩

/-- A call: the code that it gives, if one is left, and the allocator after it. -/
def call (allocator : Allocator) : Option Code × Allocator :=
  match Code.nth? allocator.base allocator.next with
  | some code => (some code, { allocator with next := allocator.next + 1 })
  | none => (none, allocator)

/-- What the call after `index` others gives. -/
def result (allocator : Allocator) : (index : Nat) → Option Code
  | 0 => allocator.call.1
  | index + 1 => allocator.call.2.result index

end Allocator
end Stencil
