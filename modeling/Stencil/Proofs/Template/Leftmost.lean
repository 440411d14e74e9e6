import Stencil.Proofs.Template.ByteScan
import Stencil.Proofs.Template.Marks

/-! Which occurrences are found. A byte offset is the position of an occurrence
if and only if a start tag, a known name and an end tag stand there and it does
not lie inside an earlier occurrence; of the names that stand there it is the
longest. The segments follow each other from the beginning of the source to its
end, and each of them begins and ends between characters. -/
namespace Stencil

variable {config : Config} {source front text : Text} {segments : List Segment}

/-! ### Occurrences at a byte offset -/

/-- At a byte offset of the source stand the start tag, the known name and the end tag. -/
def Config.OccursAt (config : Config) (source : Text) (position : Nat) (name : Text) : Prop :=
  name ∈ config.names.toList ∧
    (config.startTag ++ name ++ config.endTag).bytes <+: source.bytes.drop position

namespace Config

/-- What stands at a byte offset stands between characters. -/
theorem occursAt_iff {position : Nat} {name : Text} :
    config.OccursAt source position name ↔ name ∈ config.names.toList ∧
      ∃ before after, source = before ++ (config.startTag ++ name ++ config.endTag ++ after) ∧
        position = Text.size before := by
  constructor
  · rintro ⟨known, after, division⟩
    have present := config.names.nonempty name known
    have inside : position < source.bytes.length := by
      apply Nat.lt_of_not_le
      intro outside
      rw [List.drop_eq_nil_of_le outside, List.append_eq_nil_iff, ← List.length_eq_zero_iff, Text.length_bytes,
        Text.size_eq_zero_iff] at division
      simp [present] at division
    have whole : source.bytes = source.bytes.take position ++
        (config.startTag ++ name ++ config.endTag).bytes ++ after := by
      rw [List.append_assoc, division, List.take_append_drop]
    obtain ⟨before, back, rfl, before_eq, _⟩ := Text.eq_append_of_bytes_infix (by simp [present]) whole
    refine ⟨known, before, back, by simp, ?_⟩
    rw [← Text.length_bytes, ← before_eq, List.length_take, Nat.min_eq_left (Nat.le_of_lt inside)]
  · rintro ⟨known, before, after, rfl, rfl⟩
    refine ⟨known, after.bytes, ?_⟩
    rw [Text.bytes_append before, ← Text.length_bytes, List.drop_left, Text.bytes_append _ after]

/-- What stands at the beginning of a text. -/
theorem occursAt_size {name : Text} :
    config.OccursAt (front ++ text) (Text.size front) name ↔ name ∈ config.names.toList ∧
      ∃ after, text = config.startTag ++ name ++ config.endTag ++ after := by
  rw [occursAt_iff]
  constructor
  · rintro ⟨known, before, after, division, size_eq⟩
    exact ⟨known, after, (Text.append_inj_of_size division size_eq).2⟩
  · rintro ⟨known, after, rfl⟩
    exact ⟨known, front, after, rfl, rfl⟩

/-- An occurrence takes some room. -/
theorem OccursAt.lt_size {position : Nat} {name : Text} (stands : config.OccursAt source position name) :
    position < Text.size source := by
  obtain ⟨known, before, after, rfl, rfl⟩ := occursAt_iff.mp stands
  have positive := Names.size_pos known
  simp only [Text.size_append]
  omega

/-- Nothing is found where no occurrence stands. -/
theorem not_occursAt_of_occurrence? {name : Text} (none : config.occurrence? text = none) :
    ¬ config.OccursAt (front ++ text) (Text.size front) name := by
  rw [occursAt_size]
  rintro ⟨known, after, rfl⟩
  have afterStart : Text.after? config.startTag (config.startTag ++ name ++ config.endTag ++ after) =
      some (name ++ (config.endTag ++ after)) := Text.after?_eq_some_iff.mpr (by simp)
  have afterName : Text.after? name (name ++ (config.endTag ++ after)) = some (config.endTag ++ after) :=
    Text.after?_eq_some_iff.mpr rfl
  have afterEnd : Text.after? config.endTag (config.endTag ++ after) = some after :=
    Text.after?_eq_some_iff.mpr rfl
  rw [occurrence?, afterStart, Option.bind_eq_bind, Option.bind_some, List.findSome?_eq_none_iff] at none
  simpa [afterName, afterEnd] using none name known

/-- Of the names that stand at the beginning of a text the longest is found:
longer names are tried first, and two names of one length cannot both stand there. -/
theorem longest_of_occurrence? {name after probe : Text} (found : config.occurrence? text = some (name, after))
    (stands : config.OccursAt (front ++ text) (Text.size front) probe) :
    probe = name ∨ Text.size probe < Text.size name := by
  obtain ⟨known, rest, division⟩ := occursAt_size.mp stands
  have same : text = config.startTag ++ (name ++ (config.endTag ++ after)) := by
    simpa using (eq_of_occurrence?_eq_some found).2
  have division' : text = config.startTag ++ (probe ++ (config.endTag ++ rest)) := by simpa using division
  simp only [occurrence?, Option.bind_eq_bind, Option.bind_eq_some_iff, List.findSome?_eq_some_iff] at found
  obtain ⟨afterStart, atStart, earlier, first, later, names_eq, ⟨_, _, _, _, here⟩, untaken⟩ := found
  obtain ⟨rfl, _⟩ := Prod.mk.inj (Option.some.inj here)
  rw [Text.after?_eq_some_iff] at atStart
  have afterStart_eq : afterStart = probe ++ (config.endTag ++ rest) :=
    List.append_cancel_left (atStart.symm.trans division')
  have sorted := config.names.sorted
  rw [names_eq] at known sorted
  rcases List.mem_append.mp known with isEarlier | isLater
  · have refused := untaken probe isEarlier
    have afterName : Text.after? probe afterStart = some (config.endTag ++ rest) :=
      Text.after?_eq_some_iff.mpr afterStart_eq
    have afterEnd : Text.after? config.endTag (config.endTag ++ rest) = some rest :=
      Text.after?_eq_some_iff.mpr rfl
    simp [afterName, afterEnd] at refused
  · rcases List.mem_cons.mp isLater with rfl | isLater
    · exact .inl rfl
    · rcases List.rel_of_pairwise_cons (List.pairwise_append.mp sorted).2.1 isLater with shorter | ⟨size_eq, _⟩
      · exact .inr shorter
      · have both : probe ++ (config.endTag ++ rest) = first ++ (config.endTag ++ after) :=
          List.append_cancel_left (division'.symm.trans same)
        exact .inl (Text.append_inj_of_size both size_eq.symm).1

end Config

/-! ### Sources divided at their occurrences -/

/-- No occurrence begins in the literal characters in front of a text. -/
def IsLiteral (config : Config) (literal text : Text) : Prop :=
  ∀ before character after, literal = before ++ character :: after →
    config.occurrence? (character :: after ++ text) = none

theorem IsLiteral.nil : IsLiteral config [] text := by
  intro before character after division
  simp at division

/-- A character at which no occurrence begins makes a longer literal. -/
theorem IsLiteral.concat {literal rest : Text} {character : Char}
    (isLiteral : IsLiteral config literal (character :: rest))
    (unfound : config.occurrence? (character :: rest) = none) : IsLiteral config (literal ++ [character]) rest := by
  intro before found after division
  rcases List.eq_nil_or_concat after with rfl | ⟨after, last, rfl⟩
  · obtain ⟨_, same⟩ := List.append_inj' division rfl
    obtain rfl := (List.cons.inj same).1
    exact unfound
  · rw [List.concat_eq_append, ← List.cons_append, ← List.append_assoc] at division
    obtain ⟨rfl, same⟩ := List.append_inj' division rfl
    obtain rfl := (List.cons.inj same).1
    simpa using isLiteral before found after rfl

/-- Behind `front`, a text is divided into segments from left to right: an
occurrence where one stands, and otherwise a literal up to the next place where
one stands, or up to the end. -/
inductive Divided (config : Config) : (front text : Text) → List Segment → Prop where
  | nil {front : Text} : Divided config front [] []
  | occurrence {front text afterEnd : Text} {found : Occurrence} {rest : List Segment}
      (here : config.occurrence? text = some (found.name, afterEnd)) (position : found.position = Text.size front)
      (later : Divided config (front ++ found.source config) afterEnd rest) :
      Divided config front text (.occurrence found :: rest)
  | literal {front literal text : Text} {rest : List Segment} (some : literal ≠ [])
      (isLiteral : IsLiteral config literal text)
      (alone : ∀ next later, rest ≠ .literal next :: later) (later : Divided config (front ++ literal) text rest) :
      Divided config front (literal ++ text) (.literal literal :: rest)

theorem Divided.source_eq {found : Occurrence} {afterEnd : Text}
    (here : config.occurrence? text = some (found.name, afterEnd)) : text = found.source config ++ afterEnd :=
  (Config.eq_of_occurrence?_eq_some here).2

/-- Pending literal characters in front of an occurrence, or at the end, become one literal. -/
theorem Divided.pending {pending : Text} (later : Divided config (front ++ pending) text segments)
    (isLiteral : IsLiteral config pending text) (alone : ∀ next rest, segments ≠ .literal next :: rest) :
    Divided config front (pending ++ text) (if pending = [] then segments else .literal pending :: segments) := by
  by_cases empty : pending = []
  · subst empty
    rw [List.append_nil] at later
    rwa [if_pos rfl]
  · rw [if_neg empty]
    exact .literal empty isLiteral alone later

/-- What numbering makes of pending characters. -/
theorem number_pending {base offset : Nat} {pieces : List Piece} {pending : Text} {start : Nat}
    (noLiteral : ∀ text rest, pieces ≠ .literal text :: rest)
    (numbered : Segment.number config base start offset (pending.foldr Piece.consLiteral pieces) = .ok segments) :
    ∃ rest, Segment.number config base (start + Text.size pending) offset pieces = .ok rest ∧
      segments = if pending = [] then rest else .literal pending :: rest := by
  rw [ByteScan.foldr_consLiteral pending noLiteral] at numbered
  by_cases empty : pending = []
  · subst empty
    exact ⟨segments, numbered, rfl⟩
  · rw [if_neg empty] at numbered
    obtain ⟨rest, found, rfl⟩ := number_literal_eq_ok numbered
    exact ⟨rest, found, by rw [if_neg empty]⟩

/-- **The numbered pieces of a text divide it.** No occurrence begins in the
`pending` characters, which are literal. -/
theorem divided_of_number {base offset : Nat} {pending : Text} (isLiteral : IsLiteral config pending text)
    (numbered : Segment.number config base (Text.size front) offset
      (pending.foldr Piece.consLiteral (Piece.scan config text)) = .ok segments) :
    Divided config front (pending ++ text) segments := by
  fun_induction Piece.scan config text generalizing front pending offset segments with
  | case1 =>
    obtain ⟨rest, found, rfl⟩ := number_pending (by simp) numbered
    obtain rfl := Except.ok.inj found
    exact .pending .nil isLiteral (by simp)
  | case2 character rest name afterEnd found ih =>
    obtain ⟨later, numbered', rfl⟩ := number_pending (by simp) numbered
    obtain ⟨_, segments, inner, rfl⟩ := number_occurrence_eq_ok numbered'
    rw [← Text.size_append, ← Text.size_append] at inner
    have later : Divided config _ afterEnd segments := ih .nil inner
    exact .pending (.occurrence found (Text.size_append front pending).symm later) isLiteral (by simp)
  | case3 character rest unfound ih =>
    have divided := ih (isLiteral.concat unfound) (by rwa [List.foldr_append])
    rwa [List.append_assoc] at divided

/-- Where an occurrence ends in the source. -/
def Occurrence.stop (config : Config) (found : Occurrence) : Nat :=
  found.position + Text.size (found.source config)

theorem Occurrence.lt_stop {found : Occurrence} (known : found.name ∈ config.names.toList) :
    found.position < found.stop config := by
  have positive := Names.size_pos known
  simp only [Occurrence.stop, Occurrence.source, Text.size_append]
  omega

namespace Divided

/-- No occurrence begins in front of the text that is divided. -/
theorem le_position (divided : Divided config front text segments) {found : Occurrence}
    (member : found ∈ occurrencesOf segments) : Text.size front ≤ found.position := by
  induction divided with
  | nil => cases member
  | occurrence here position later ih =>
    rcases List.mem_cons.mp member with rfl | member
    · exact Nat.le_of_eq position.symm
    · have behind := ih member
      rw [Text.size_append] at behind
      omega
  | literal some isLiteral alone later ih =>
    have behind := ih member
    rw [Text.size_append] at behind
    omega

/-- A place in a literal is in front of one of its characters. -/
theorem cut_in_literal {literal before rest : Text} (division : front ++ (literal ++ text) = before ++ rest)
    (begins : Text.size front ≤ Text.size before) (ends : Text.size before < Text.size (front ++ literal)) :
    ∃ read character unread, before = front ++ read ∧ literal = read ++ character :: unread ∧
      rest = character :: unread ++ text := by
  obtain ⟨read, rfl, inner⟩ : ∃ read, before = front ++ read ∧ literal ++ text = read ++ rest := by
    rcases List.append_eq_append_iff.mp division with ⟨read, rfl, inner⟩ | ⟨more, rfl, rest_eq⟩
    · exact ⟨read, rfl, inner⟩
    · rw [Text.size_append] at begins
      have nothing : more = [] := Text.size_eq_zero_iff.mp (by omega)
      subst nothing
      exact ⟨[], by simp, rest_eq.symm⟩
  rcases List.append_eq_append_iff.mp inner with ⟨more, rfl, _⟩ | ⟨unread, rfl, rfl⟩
  · simp only [Text.size_append] at ends
    omega
  · cases unread with
    | nil => simp at ends
    | cons character unread => exact ⟨read, character, unread, rfl, rfl, rfl⟩

/-- No occurrence begins in a literal. -/
theorem not_occursAt_in_literal {literal name : Text} {position : Nat} (isLiteral : IsLiteral config literal text)
    (begins : Text.size front ≤ position) (ends : position < Text.size (front ++ literal)) :
    ¬ config.OccursAt (front ++ (literal ++ text)) position name := by
  intro stands
  obtain ⟨_, before, after, division, rfl⟩ := Config.occursAt_iff.mp stands
  obtain ⟨read, character, unread, rfl, rfl, _⟩ := cut_in_literal division begins ends
  have unfound := isLiteral read character unread rfl
  have source_eq : front ++ (read ++ character :: unread ++ text) =
      front ++ read ++ (character :: unread ++ text) := by simp
  rw [source_eq] at stands
  exact Config.not_occursAt_of_occurrence? unfound stands

/-- A byte offset is the position of an occurrence if and only if one stands there
and the offset is not inside an earlier one. -/
theorem position_iff (divided : Divided config front text segments) {position : Nat}
    (behind : Text.size front ≤ position) :
    (∃ found ∈ occurrencesOf segments, found.position = position) ↔
      (∃ name, config.OccursAt (front ++ text) position name) ∧
        ∀ earlier ∈ occurrencesOf segments, ¬ (earlier.position < position ∧ position < earlier.stop config) := by
  induction divided with
  | @nil front =>
    constructor
    · rintro ⟨found, member, _⟩
      cases member
    · rintro ⟨⟨name, stands⟩, _⟩
      have inside := stands.lt_size
      rw [List.append_nil] at inside
      omega
  | @occurrence front text afterEnd found rest here start later ih =>
    have text_eq : front ++ text = front ++ found.source config ++ afterEnd := by
      rw [List.append_assoc, source_eq here]
    have stop_eq : found.stop config = Text.size (front ++ found.source config) := by
      rw [Occurrence.stop, start, Text.size_append]
    have apart : ∀ other ∈ occurrencesOf rest, found.stop config ≤ other.position := fun other member =>
      stop_eq ▸ later.le_position member
    obtain ⟨known, division⟩ := Config.eq_of_occurrence?_eq_some here
    have positive : found.position < found.stop config := Occurrence.lt_stop known
    have occurrences_eq : occurrencesOf (.occurrence found :: rest) = found :: occurrencesOf rest := rfl
    simp only [occurrences_eq, List.exists_mem_cons_iff, List.forall_mem_cons]
    rcases Nat.lt_trichotomy position found.position with before | same | after
    · omega
    · constructor
      · intro _
        refine ⟨⟨found.name, ?_⟩, by omega, fun other member => ?_⟩
        · rw [same, start]
          exact Config.occursAt_size.mpr ⟨known, afterEnd, division⟩
        · have := apart other member
          omega
      · exact fun _ => .inl same.symm
    · by_cases inside : position < found.stop config
      · constructor
        · rintro (same | ⟨other, member, rfl⟩)
          · omega
          · have := apart other member
            omega
        · rintro ⟨_, outside, _⟩
          exact absurd ⟨after, inside⟩ outside
      · have tail := ih (by omega)
        rw [text_eq]
        constructor
        · rintro (same | known)
          · omega
          · obtain ⟨stands, outside⟩ := tail.mp known
            exact ⟨stands, by omega, outside⟩
        · rintro ⟨stands, _, outside⟩
          exact .inr (tail.mpr ⟨stands, outside⟩)
  | @literal front literal text rest some isLiteral alone later ih =>
    by_cases inside : position < Text.size (front ++ literal)
    · constructor
      · rintro ⟨found, member, rfl⟩
        have beyond := later.le_position member
        omega
      · rintro ⟨⟨name, stands⟩, _⟩
        exact absurd stands (not_occursAt_in_literal isLiteral behind inside)
    · rw [← List.append_assoc]
      exact ih (Nat.le_of_not_lt inside)

/-- The name of an occurrence is the longest of the names that stand at its position. -/
theorem longest (divided : Divided config front text segments) {found : Occurrence}
    (member : found ∈ occurrencesOf segments) :
    config.OccursAt (front ++ text) found.position found.name ∧
      ∀ name, config.OccursAt (front ++ text) found.position name →
        name = found.name ∨ Text.size name < Text.size found.name := by
  induction divided with
  | nil => cases member
  | @occurrence front text afterEnd first rest here start later ih =>
    rcases List.mem_cons.mp member with rfl | member
    · obtain ⟨known, division⟩ := Config.eq_of_occurrence?_eq_some here
      rw [start]
      exact ⟨Config.occursAt_size.mpr ⟨known, afterEnd, division⟩, fun name => Config.longest_of_occurrence? here⟩
    · rw [source_eq here, ← List.append_assoc]
      exact ih member
  | literal some isLiteral alone later ih =>
    rw [← List.append_assoc]
    exact ih member

end Divided

/-! ### Spans -/

/-- Spans that follow each other from one place to another one. A literal has at
least one byte and no literal after it, and an occurrence consists of the start
tag, its name and the end tag. -/
inductive Tiles (config : Config) : (start stop : Nat) → List Span → Prop where
  | nil {place : Nat} : Tiles config place place []
  | literal {start middle stop : Nat} {rest : List Span} (some : start < middle)
      (alone : ∀ range later, rest ≠ .literal range :: later) (later : Tiles config middle stop rest) :
      Tiles config start stop (.literal ⟨start, middle⟩ :: rest)
  | occurrence {position nameStop stop : Nat} {code : Code} {context : Context} {rest : List Span}
      (some : position + Text.size config.startTag < nameStop)
      (later : Tiles config (nameStop + Text.size config.endTag) stop rest) :
      Tiles config position stop
        (.occurrence ⟨position + Text.size config.startTag, nameStop⟩ position code context :: rest)

/-- The places where a span and its parts begin and end. -/
def Span.places (config : Config) : Span → List Nat
  | .literal range => [range.start, range.stop]
  | .occurrence name position _ _ => [position, name.start, name.stop, name.stop + Text.size config.endTag]

/-- The span of an occurrence, with all its places counted from its own position. -/
theorem spansOf_occurrence {found : Occurrence} {rest : List Segment} (start : found.position = Text.size front) :
    spansOf config (Text.size front) (.occurrence found :: rest) =
      .occurrence ⟨Text.size front + Text.size config.startTag,
        Text.size front + Text.size config.startTag + Text.size found.name⟩ (Text.size front) found.code found.context ::
        spansOf config (Text.size (front ++ found.source config)) rest := by
  rw [spansOf, ByteScan.placed, start, Text.size_append]
  rfl

/-- A text that is divided is tiled. -/
theorem Divided.tiles (divided : Divided config front text segments) :
    Tiles config (Text.size front) (Text.size (front ++ text)) (spansOf config (Text.size front) segments) := by
  induction divided with
  | nil =>
    rw [List.append_nil]
    exact .nil
  | @occurrence front text afterEnd found rest here start later ih =>
    obtain ⟨known, _⟩ := Config.eq_of_occurrence?_eq_some here
    have positive := Names.size_pos known
    have stop_eq : Text.size front + Text.size config.startTag + Text.size found.name + Text.size config.endTag =
        Text.size (front ++ found.source config) := by
      simp [Occurrence.source, Nat.add_assoc]
    rw [spansOf_occurrence start]
    apply Tiles.occurrence
    · omega
    · rw [stop_eq, source_eq here, ← List.append_assoc]
      exact ih
  | @literal front literal text rest some isLiteral alone later ih =>
    rw [spansOf, ← Text.size_append]
    apply Tiles.literal
    · have positive : Text.size literal ≠ 0 := fun empty => some (Text.size_eq_zero_iff.mp empty)
      rw [Text.size_append]
      omega
    · intro range spans follows
      cases rest with
      | nil => cases follows
      | cons segment rest =>
        cases segment with
        | literal next => exact alone next rest rfl
        | occurrence found => cases follows
    · rw [← List.append_assoc]
      exact ih

/-- All its spans begin and end between characters. -/
theorem Divided.boundaries (divided : Divided config front text segments) :
    ∀ span ∈ spansOf config (Text.size front) segments, ∀ place ∈ span.places config,
      Text.isBoundary (front ++ text).bytes place = true := by
  induction divided with
  | nil =>
    intro span member
    cases member
  | @occurrence front text afterEnd found rest here start later ih =>
    obtain ⟨_, rfl⟩ := Config.eq_of_occurrence?_eq_some here
    rw [spansOf_occurrence start]
    intro span member place isPlace
    rcases List.mem_cons.mp member with rfl | member
    · simp only [Span.places, List.mem_cons, List.not_mem_nil, or_false] at isPlace
      rcases isPlace with rfl | rfl | rfl | rfl
      · exact Text.isBoundary_append front _
      · have boundary := Text.isBoundary_append (front ++ config.startTag) (found.name ++ config.endTag ++ afterEnd)
        simpa using boundary
      · have boundary := Text.isBoundary_append (front ++ config.startTag ++ found.name) (config.endTag ++ afterEnd)
        simpa [Nat.add_assoc] using boundary
      · have boundary := Text.isBoundary_append (front ++ config.startTag ++ found.name ++ config.endTag) afterEnd
        simpa [Nat.add_assoc] using boundary
    · have boundary := ih span member place isPlace
      rwa [List.append_assoc] at boundary
  | @literal front literal text rest some isLiteral alone later ih =>
    rw [spansOf, ← Text.size_append]
    intro span member place isPlace
    rcases List.mem_cons.mp member with rfl | member
    · simp only [Span.places, List.mem_cons, List.not_mem_nil, or_false] at isPlace
      rcases isPlace with rfl | rfl
      · exact Text.isBoundary_append front _
      · rw [← List.append_assoc]
        exact Text.isBoundary_append (front ++ literal) text
    · rw [← List.append_assoc]
      exact ih span member place isPlace

/-! ### The tokens of a source -/

/-- The number of occurrences among pieces. -/
def Piece.count : List Piece → Nat
  | [] => 0
  | .literal _ :: pieces => count pieces
  | .occurrence _ :: pieces => count pieces + 1

/-- Numbering succeeds as long as there are codes left. -/
theorem number_exists {base position offset : Nat} {pieces : List Piece}
    (enough : offset + Piece.count pieces ≤ Code.limit) :
    ∃ segments, Segment.number config base position offset pieces = .ok segments := by
  induction pieces generalizing position offset with
  | nil => exact ⟨[], rfl⟩
  | cons piece pieces ih =>
    cases piece with
    | literal text =>
      obtain ⟨rest, numbered⟩ := @ih (position + Text.size text) offset enough
      exact ⟨.literal text :: rest, by rw [Segment.number, numbered]; rfl⟩
    | occurrence name =>
      rw [Piece.count] at enough
      have below : offset < Code.limit := by omega
      obtain ⟨rest, numbered⟩ :=
        @ih (position + Text.size (Piece.source config (.occurrence name))) (offset + 1) (by omega)
      refine ⟨.occurrence ⟨name, position, ⟨base, offset⟩, .string⟩ :: rest, ?_⟩
      rw [Segment.number, Code.nth?, if_pos below]
      dsimp only
      rw [numbered]
      rfl

/-- **The leftmost, longest occurrences are found, and nothing else.** When there
are no more occurrences than codes, the search in the bytes of a source slices it
between characters only, and the segments that it gives as places are those that
the source is compiled with. A byte offset is the position of one if and only if
a start tag, a known name and an end tag stand there and it is not inside an
earlier one; its name is the longest. The segments tile the source, literals are
not empty and never adjacent, and every range ends between characters. -/
theorem tokenize_leftmost_longest {base : Nat} (tagged : config.emptyDelimiter? = none)
    (enough : Piece.count (Piece.scan config source) ≤ Code.limit) :
    ∃ segments, Segment.ofSource config source base = .ok segments ∧
      ByteScan.tokenize config source base = .ok (spansOf config 0 segments) ∧
      segments.flatMap (Segment.source config) = source ∧
      (∀ position, (∃ found ∈ occurrencesOf segments, found.position = position) ↔
        (∃ name, config.OccursAt source position name) ∧
          ∀ earlier ∈ occurrencesOf segments, ¬ (earlier.position < position ∧ position < earlier.stop config)) ∧
      (∀ found ∈ occurrencesOf segments, config.OccursAt source found.position found.name ∧
        ∀ name, config.OccursAt source found.position name →
          name = found.name ∨ Text.size name < Text.size found.name) ∧
      Tiles config 0 (Text.size source) (spansOf config 0 segments) ∧
      ∀ span ∈ spansOf config 0 segments, ∀ place ∈ span.places config,
        Text.isBoundary source.bytes place = true := by
  obtain ⟨segments, numbered⟩ : ∃ segments, Segment.ofSource config source base = .ok segments :=
    number_exists (by rwa [Nat.zero_add])
  obtain ⟨startTag_ne, _⟩ := Config.emptyDelimiter?_eq_none_iff.mp tagged
  have divided : Divided config [] source segments := divided_of_number .nil numbered
  refine ⟨segments, numbered, ?_, Segment.source_of_ofSource numbered,
    fun position => divided.position_iff (Nat.zero_le position), fun found member => divided.longest member,
    divided.tiles, divided.boundaries⟩
  rw [ByteScan.tokenize_eq startTag_ne, numbered]
  rfl

/-- Tags of two bytes, and a name that holds the end tag and begins with another name. -/
def overlapConfig : Config where
  names := { toList := [['a', '»', 'b'], ['a']], sorted := by decide, nonempty := by decide }
  startTag := ['«']
  endTag := ['»']

/-- A start tag in front of an occurrence, and a literal behind it. -/
def overlapSource : Text := ['«', '«', 'a', '»', 'b', '»', 'é']

/-- The first start tag is literal, and the longer name is found behind the second one. -/
theorem tokenize_overlap : ByteScan.tokenize overlapConfig overlapSource 7 =
    .ok [.literal ⟨0, 2⟩, .occurrence ⟨4, 8⟩ 2 ⟨7, 0⟩ .string, .literal ⟨10, 12⟩] := by
  have pieces : Piece.scan overlapConfig overlapSource =
      [.literal ['«'], .occurrence ['a', '»', 'b'], .literal ['é']] := by cbv
  have enough : Piece.count (Piece.scan overlapConfig overlapSource) ≤ Code.limit := by
    rw [pieces]
    decide
  have divided : Segment.ofSource overlapConfig overlapSource 7 =
      .ok [.literal ['«'], .occurrence ⟨['a', '»', 'b'], 2, ⟨7, 0⟩, .string⟩, .literal ['é']] := by
    rw [Segment.ofSource, pieces]
    decide
  obtain ⟨segments, numbered, found, _⟩ := @tokenize_leftmost_longest overlapConfig overlapSource 7 (by decide) enough
  obtain rfl := Except.ok.inj (divided.symm.trans numbered)
  exact found

end Stencil
