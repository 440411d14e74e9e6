import Stencil.Template.Span
import Stencil.Text.Bytes

/-! The search for occurrences in the bytes of a source. It jumps from one byte
that may begin a start tag to the next one, tries the names there, and goes on
after the byte, in the middle of a character perhaps, when none of them stands
there. -/

namespace Stencil

/-- Why the search in the bytes of a source stops. -/
inductive Halt where
  /-- The source would be sliced inside of a character. -/
  | brokenSlice (place : Nat)
  /-- The start tag is empty. -/
  | noFirstByte
  | failed (error : ParseError)
deriving DecidableEq

namespace ByteScan

/-- The place of the next wanted byte. -/
def next? (wanted : UInt8) (bytes : List UInt8) (finger : Nat) : Option Nat :=
  ((bytes.drop finger).findIdx? (· = wanted)).map (finger + ·)

/-- The rest of a text from a place on. -/
def sliceFrom (bytes : List UInt8) (place : Nat) : Except Halt (List UInt8) :=
  if Text.isBoundary bytes place then .ok (bytes.drop place) else .error (.brokenSlice place)

/-- The rest of a text after `opening`, if the text begins with it. -/
def strip (opening bytes : List UInt8) : Except Halt (Option (List UInt8)) :=
  if opening.isPrefixOf bytes then (sliceFrom bytes opening.length).map some else .ok none

/-- The range of the first name that stands at a place, given with the bytes
from there on, and is followed by the end tag; and the place after the end tag. -/
def matchName (config : Config) (place : Nat) (bytes : List UInt8) :
    List Text → Except Halt (Option (SourceRange × Nat))
  | [] => .ok none
  | name :: names =>
    match strip name.bytes bytes with
    | .error halt => .error halt
    | .ok none => matchName config place bytes names
    | .ok (some afterName) =>
      if config.endTag.bytes.isPrefixOf afterName then
        let nameStop := place + name.bytes.length
        .ok (some (⟨place, nameStop⟩, nameStop + config.endTag.bytes.length))
      else matchName config place bytes names

/-- The range of the name of the occurrence at a place, and the place after the occurrence. -/
def matchMacro (config : Config) (bytes : List UInt8) (place : Nat) : Except Halt (Option (SourceRange × Nat)) :=
  match sliceFrom bytes place with
  | .error halt => .error halt
  | .ok here =>
    match strip config.startTag.bytes here with
    | .error halt => .error halt
    | .ok none => .ok none
    | .ok (some afterStart) =>
      matchName config (place + config.startTag.bytes.length) afterStart config.names.toList

/-- The literal between two places, unless it is empty. -/
def literalBetween (start stop : Nat) : List Span :=
  if start = stop then [] else [.literal ⟨start, stop⟩]

/-- The literal from a place to the end, unless it is empty. -/
def lastLiteral (bytes : List UInt8) (start : Nat) : List Span :=
  if start < bytes.length then [.literal ⟨start, bytes.length⟩] else []

variable {config : Config} {bytes : List UInt8}

theorem lt_of_matchName {place : Nat} {names : List Text} {found : SourceRange × Nat}
    (known : ∀ name ∈ names, name ∈ config.names.toList)
    (matched : matchName config place bytes names = .ok (some found)) : place < found.2 := by
  induction names with
  | nil => cases matched
  | cons name names ih =>
    obtain ⟨member, others⟩ := List.forall_mem_cons.mp known
    rw [matchName] at matched
    split at matched
    · cases matched
    · exact ih others matched
    · split at matched
      · obtain rfl := Option.some.inj (Except.ok.inj matched)
        have positive := Names.size_pos member
        simp only [Text.length_bytes]
        omega
      · exact ih others matched

/-- A match reaches beyond the place where it begins, because no name is empty. -/
theorem lt_of_matchMacro {place : Nat} {found : SourceRange × Nat}
    (matched : matchMacro config bytes place = .ok (some found)) : place < found.2 := by
  unfold matchMacro at matched
  split at matched
  · cases matched
  · split at matched
    · cases matched
    · cases matched
    · exact Nat.lt_of_le_of_lt (Nat.le_add_right place _) (lt_of_matchName (fun _ => id) matched)

theorem le_of_next? {wanted : UInt8} {finger candidate : Nat} (found : next? wanted bytes finger = some candidate) :
    finger ≤ candidate := by
  obtain ⟨skipped, _, rfl⟩ := Option.map_eq_some_iff.mp found
  exact Nat.le_add_right finger skipped

/-- The segments of a source from a place on, given with its bytes. `literalStart`
is the end of the last occurrence, and `offset` counts the occurrences so far. -/
def spansFrom (config : Config) (bytes : List UInt8) (first : UInt8) (base literalStart finger offset : Nat) :
    Except Halt (List Span) :=
  if finger < bytes.length then
    match _found : next? first bytes finger with
    | none => .ok (lastLiteral bytes literalStart)
    | some candidate =>
      match _matched : matchMacro config bytes candidate with
      | .error halt => .error halt
      | .ok none => spansFrom config bytes first base literalStart (candidate + 1) offset
      | .ok (some (name, stop)) =>
        match Code.nth? base offset with
        | none => .error (.failed (.tooManyMacros candidate Code.limit))
        | some code =>
          (spansFrom config bytes first base stop stop (offset + 1)).map fun later =>
            literalBetween literalStart candidate ++ .occurrence name candidate code .string :: later
  else .ok (lastLiteral bytes literalStart)
termination_by bytes.length - finger
decreasing_by
  · have onward := le_of_next? _found
    omega
  · have onward := le_of_next? _found
    have beyond := lt_of_matchMacro _matched
    simp only at beyond
    omega

/-- The segments of a source as places. -/
def tokenize (config : Config) (source : Text) (base : Nat) : Except Halt (List Span) :=
  match config.startTag.bytes with
  | [] => .error .noFirstByte
  | first :: _ => spansFrom config source.bytes first base 0 0 0

end ByteScan
end Stencil
