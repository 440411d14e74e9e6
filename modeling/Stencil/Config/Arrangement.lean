import Mathlib.Data.List.Destutter
import Stencil.Text.Bytes

/-! Names as they are put in order when they are given as a list: sorted, and
without those that equal the one before them. -/

namespace Stencil

/-- The comparison that names are sorted by: more bytes come first, and of two
names with as many bytes the one whose bytes come first. -/
def Text.tryOrder (left right : Text) : Ordering :=
  (compare (Text.size right) (Text.size left)).then (compareOfLessAndEq left.bytes right.bytes)

namespace Names

/-- The names that are not empty, sorted. -/
def arranged (given : List Text) : List Text :=
  (given.filter fun name => !name.isEmpty).mergeSort fun left right => Text.tryOrder left right != .gt

/-- The sorted names, each without the equal ones that follow it. -/
def arrangedOnce (given : List Text) : List Text := (arranged given).destutter (· ≠ ·)

end Names
end Stencil
