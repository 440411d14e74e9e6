import Stencil.Template.Basic

/-! The walk through the tree of an encoded document. It collects the places of
the segments whose codes are whole integers or unquoted keys, in the order in
which it comes to them. -/

namespace Stencil

open Document (Node)

section Walk

variable {Found : Type} (pick : Document.Token → Option Found)

mutual

/-- Walks a tree and puts what its keys and integers lead to behind what was collected before. -/
def collect (collected : List Found) : Node → List Found
  | .object members => collectMembers collected members
  | .array items => collectItems collected items
  | .integer digits => collected ++ (pick (.integer digits)).toList
  | .other => collected

/-- Walks the members of an object; a key comes before its value. -/
def collectMembers (collected : List Found) : List (Text × Node) → List Found
  | [] => collected
  | (key, value) :: members => collectMembers (collect (collected ++ (pick (.key key)).toList) value) members

/-- Walks the items of an array. -/
def collectItems (collected : List Found) : List Node → List Found
  | [] => collected
  | item :: items => collectItems (collect collected item) items

end

end Walk

/-- The occurrence that is the segment at a place. -/
def occurrenceAt? (segments : List Segment) (index : Nat) : Option Occurrence :=
  segments[index]?.bind Segment.occurrence?

/-- The place of the occurrence with a code. -/
def indexOf? (segments : List Segment) (code : Code) : Option Nat :=
  segments.findIdx? fun segment => segment.occurrence?.any fun found => found.code = code

/-- The place of the occurrence that a token of the encoded document stands for. -/
def rawIndex? (source : Text) (segments : List Segment) (token : Document.Token) : Option Nat := do
  let code ← Code.ofDigits? token.text
  let index ← indexOf? segments code
  match token with
  | .integer _ => some index
  | .key _ => do
    let found ← occurrenceAt? segments index
    if followsQuote source found.position then none else some index

/-- The places of the raw occurrences among numbered segments, in the order in which a
walk of the encoded document comes to them. Without occurrences there is no walk. -/
def rawIndices (source : Text) (segments : List Segment) : List Nat :=
  if occurrencesOf segments = [] then []
  else
    match Document.parse (encodedOf segments) with
    | .ok root => collect (rawIndex? source segments) [] root
    | .error _ => []

end Stencil
