import Stencil.Proofs.Template.CodePlaces

/-! What a successful compilation goes through. Its segments are numbered by
their places, the base of their codes is not found in the source, and marking
occurrences as raw changes neither the source nor the encoded document. -/
namespace Stencil

/-- An occurrence after the given ones were found to be raw. -/
def Occurrence.marked (raw : List Occurrence) (found : Occurrence) : Occurrence :=
  if raw.any fun other => other.code = found.code then { found with context := .raw } else found

@[simp] theorem Occurrence.marked_name (raw : List Occurrence) (found : Occurrence) :
    (found.marked raw).name = found.name := by
  unfold marked
  split <;> rfl

@[simp] theorem Occurrence.marked_position (raw : List Occurrence) (found : Occurrence) :
    (found.marked raw).position = found.position := by
  unfold marked
  split <;> rfl

@[simp] theorem Occurrence.marked_code (raw : List Occurrence) (found : Occurrence) :
    (found.marked raw).code = found.code := by
  unfold marked
  split <;> rfl

/-- Nothing else than marking makes an occurrence raw. -/
theorem Occurrence.marked_context {raw : List Occurrence} {found : Occurrence}
    (before : found.context = .string) :
    (found.marked raw).context = .raw ↔ ∃ other ∈ raw, other.code = found.code := by
  unfold marked
  split
  · rename_i isRaw
    simpa using isRaw
  · rename_i notRaw
    simpa [before] using notRaw

/-! ### Changed occurrences -/

/-- Changes the occurrence of a mark, if it is one. -/
def Mark.mapOccurrence (change : Occurrence → Occurrence) : Mark → Mark
  | .character char => .character char
  | .occurrence found => .occurrence (change found)

theorem marksOf_map (change : Occurrence → Occurrence) (segments : List Segment) :
    marksOf (segments.map (Segment.mapOccurrence change)) = (marksOf segments).map (Mark.mapOccurrence change) := by
  induction segments with
  | nil => rfl
  | cons segment rest ih =>
    rw [List.map_cons, marksOf_cons, marksOf_cons, List.map_append, ← ih]
    congr 1
    cases segment with
    | literal text => simp [Segment.mapOccurrence, Segment.marks, Mark.mapOccurrence]
    | occurrence found => rfl

theorem occurrences_map (change : Occurrence → Occurrence) (marks : List Mark) :
    (marks.map (Mark.mapOccurrence change)).filterMap Mark.occurrence? =
      (marks.filterMap Mark.occurrence?).map change := by
  rw [List.filterMap_map, List.map_filterMap]
  congr 1
  funext mark
  cases mark <;> rfl

theorem occurrencesOf_map (change : Occurrence → Occurrence) (segments : List Segment) :
    occurrencesOf (segments.map (Segment.mapOccurrence change)) = (occurrencesOf segments).map change := by
  rw [occurrencesOf_eq_filterMap, occurrencesOf_eq_filterMap, marksOf_map, occurrences_map]

theorem filledOf_map (fill : Occurrence → Text) (change : Occurrence → Occurrence) (marks : List Mark) :
    filledOf fill (marks.map (Mark.mapOccurrence change)) = filledOf (fun found => fill (change found)) marks := by
  induction marks with
  | nil => rfl
  | cons mark rest ih =>
    rw [List.map_cons, filledOf_cons, filledOf_cons, ih]
    cases mark <;> rfl

/-- Where a changed occurrence stands, it stood before. -/
theorem split_of_map {change : Occurrence → Occurrence} {marks front back : List Mark} {found : Occurrence}
    (split : marks.map (Mark.mapOccurrence change) = front ++ .occurrence found :: back) :
    ∃ before plain after, marks = before ++ .occurrence plain :: after ∧ found = change plain ∧
      front = before.map (Mark.mapOccurrence change) ∧ back = after.map (Mark.mapOccurrence change) := by
  obtain ⟨before, rest, rfl, rfl, rest_eq⟩ := List.map_eq_append_iff.mp split
  obtain ⟨mark, after, rfl, mark_eq, rfl⟩ := List.map_eq_cons_iff.mp rest_eq
  cases mark with
  | character char => cases mark_eq
  | occurrence plain =>
    obtain rfl := Mark.occurrence.inj mark_eq
    exact ⟨before, plain, after, rfl, rfl, rfl, rfl⟩

theorem marksOf_markRaw (raw : List Occurrence) (segments : List Segment) :
    marksOf (markRaw raw segments) = (marksOf segments).map (Mark.mapOccurrence (Occurrence.marked raw)) :=
  marksOf_map (Occurrence.marked raw) segments

theorem occurrencesOf_markRaw (raw : List Occurrence) (segments : List Segment) :
    occurrencesOf (markRaw raw segments) = (occurrencesOf segments).map (Occurrence.marked raw) :=
  occurrencesOf_map (Occurrence.marked raw) segments

/-- Marking leaves the encoded document as it is. -/
theorem encoded_marked (raw : List Occurrence) (marks : List Mark) :
    filledOf Occurrence.encoded (marks.map (Mark.mapOccurrence (Occurrence.marked raw))) =
      filledOf Occurrence.encoded marks := by
  rw [filledOf_map]
  simp only [Occurrence.encoded, Occurrence.marked_code]
  rfl

theorem encodedOf_markRaw (raw : List Occurrence) (segments : List Segment) :
    encodedOf (markRaw raw segments) = encodedOf segments := by
  rw [encodedOf_eq_filledOf, encodedOf_eq_filledOf, marksOf_markRaw, encoded_marked]

/-- The source stays the same when occurrences keep their names. -/
theorem source_map {config : Config} {change : Occurrence → Occurrence}
    (kept : ∀ found, (change found).name = found.name ∧ (change found).position = found.position) (marks : List Mark) :
    filledOf (Occurrence.source config) (marks.map (Mark.mapOccurrence change)) =
      filledOf (Occurrence.source config) marks := by
  rw [filledOf_map]
  simp only [Occurrence.source, kept]
  rfl

/-- Occurrences that keep their names and positions, and the numbers of their codes, stay numbered. -/
theorem Numbered.map {config : Config} {base other : Nat} {marks : List Mark}
    (numbered : Numbered config base marks) {change : Occurrence → Occurrence}
    (kept : ∀ found, (change found).name = found.name ∧ (change found).position = found.position)
    (recoded : ∀ found, .occurrence found ∈ marks → (change found).code = ⟨other, found.code.offset⟩) :
    Numbered config other (marks.map (Mark.mapOccurrence change)) := by
  intro front found back split
  obtain ⟨before, plain, after, rfl, rfl, rfl, _⟩ := split_of_map split
  obtain ⟨position, code, offset_lt⟩ := numbered before plain after rfl
  have code_eq := recoded plain (by simp)
  refine ⟨?_, ?_, by rwa [code_eq]⟩
  · rw [(kept plain).2, position, source_map kept]
  · rw [code_eq, code, occurrences_map, List.length_map]

/-- Marking changes neither the places nor the source. -/
theorem Numbered.marked {config : Config} {base : Nat} {marks : List Mark} (numbered : Numbered config base marks)
    (raw : List Occurrence) :
    Numbered config base (marks.map (Mark.mapOccurrence (Occurrence.marked raw))) ∧
      filledOf (Occurrence.source config) (marks.map (Mark.mapOccurrence (Occurrence.marked raw))) =
        filledOf (Occurrence.source config) marks := by
  have kept (found : Occurrence) :
      (found.marked raw).name = found.name ∧ (found.marked raw).position = found.position :=
    ⟨found.marked_name raw, found.marked_position raw⟩
  refine ⟨numbered.map kept ?_, source_map kept marks⟩
  intro found member
  obtain ⟨same, _⟩ := numbered.codesOf found member
  rw [Occurrence.marked_code, ← same]

/-! ### Marks that encode a source -/

/-- Marks with codes that serve to examine a source: they are numbered by their
places and belong to a base that is not found in the source. -/
structure Encodes (config : Config) (source : Text) (base : Nat) (marks : List Mark) : Prop where
  numbered : Numbered config base marks
  source_eq : filledOf (Occurrence.source config) marks = source
  fits : Supply.fits source base = true
  base_lt : base < Code.baseBound

namespace Encodes

variable {config : Config} {source : Text} {base : Nat} {marks : List Mark}

theorem codesOf (encodes : Encodes config source base marks) : CodesOf base marks := encodes.numbered.codesOf

theorem untouched (encodes : Encodes config source base marks) : Untouched base marks :=
  untouched_of_fits encodes.fits encodes.source_eq

/-- The code of an occurrence can be read back from its digits. -/
theorem usable (encodes : Encodes config source base marks) {found : Occurrence}
    (member : .occurrence found ∈ marks) : found.code.Usable := by
  obtain ⟨same, below⟩ := encodes.codesOf found member
  exact ⟨same ▸ pos_of_fits encodes.fits, same ▸ encodes.base_lt, below⟩

/-- Occurrences may change, as long as the source stays the same and the codes
keep their numbers with a base that serves as well. -/
theorem map (encodes : Encodes config source base marks) {change : Occurrence → Occurrence} {other : Nat}
    (kept : ∀ found, (change found).name = found.name ∧ (change found).position = found.position)
    (recoded : ∀ found, .occurrence found ∈ marks → (change found).code = ⟨other, found.code.offset⟩)
    (fits : Supply.fits source other = true) (bounded : other < Code.baseBound) :
    Encodes config source other (marks.map (Mark.mapOccurrence change)) :=
  ⟨encodes.numbered.map kept recoded, by rw [source_map kept, encodes.source_eq], fits, bounded⟩

/-- Marking takes away nothing of this. -/
theorem marked (encodes : Encodes config source base marks) (raw : List Occurrence) :
    Encodes config source base (marks.map (Mark.mapOccurrence (Occurrence.marked raw))) := by
  obtain ⟨numbered, source_eq⟩ := encodes.numbered.marked raw
  exact ⟨numbered, by rw [source_eq, encodes.source_eq], encodes.fits, encodes.base_lt⟩

end Encodes

/-- The segments of a source encode it, and none of its occurrences is raw at first. -/
theorem encodes_of_ofSource {config : Config} {source : Text} {base : Nat} {segments : List Segment}
    (fits : Supply.fits source base = true) (bounded : base < Code.baseBound)
    (divided : Segment.ofSource config source base = .ok segments) :
    Encodes config source base (marksOf segments) ∧
      ∀ found, Mark.occurrence found ∈ marksOf segments → found.context = .string := by
  obtain ⟨numbered, contexts⟩ := numbered_of_ofSource divided
  refine ⟨⟨numbered, ?_, fits, bounded⟩, contexts⟩
  rw [← source_eq_filledOf, Segment.source_of_ofSource divided]

/-- Compiling succeeds by dividing the source, and by finding and marking the raw occurrences. -/
theorem compile_eq_ok {config : Config} {source : Text} {base : Nat} {compiled : Compiled}
    (compiles : Template.compile config source base = .ok compiled) :
    ∃ segments raw, Segment.ofSource config source base = .ok segments ∧
      Template.findRaw config source segments = .ok raw ∧
      compiled = ⟨⟨source, config, markRaw raw segments⟩, raw⟩ := by
  unfold Template.compile at compiles
  cases empty : config.emptyDelimiter? with
  | some delimiter => simp [empty] at compiles
  | none =>
    cases divided : Segment.ofSource config source base with
    | error error => simp [empty, divided] at compiles
    | ok segments =>
      cases search : Template.findRaw config source segments with
      | error error => simp [empty, divided, search] at compiles
      | ok raw =>
        simp only [empty, divided, search, Except.ok.injEq] at compiles
        exact ⟨segments, raw, rfl, search, compiles.symm⟩

/-- A template keeps what it was compiled from. -/
theorem source_of_compile {config : Config} {source : Text} {base : Nat} {compiled : Compiled}
    (compiles : Template.compile config source base = .ok compiled) :
    compiled.template.source = source ∧ compiled.template.config = config := by
  obtain ⟨segments, raw, _, _, rfl⟩ := compile_eq_ok compiles
  exact ⟨rfl, rfl⟩

/-- A source with occurrences compiles by reading its encoded document, whose
tokens tell which occurrences are raw. -/
theorem compile_eq_ok_of_occurrences {config : Config} {source : Text} {base : Nat} {compiled : Compiled}
    (compiles : Template.compile config source base = .ok compiled) (some : compiled.template.occurrences ≠ []) :
    ∃ segments root, Segment.ofSource config source base = .ok segments ∧
      Document.parse compiled.template.encoded = .ok root ∧
      compiled.template =
        ⟨source, config, markRaw (rawTokens source (occurrencesOf segments) root) segments⟩ := by
  obtain ⟨segments, raw, divided, search, rfl⟩ := compile_eq_ok compiles
  rw [Template.occurrences, occurrencesOf_markRaw, ne_eq, List.map_eq_nil_iff] at some
  rw [Template.findRaw, if_neg some] at search
  cases parsed : Document.parse (encodedOf segments) with
  | error error => simp [parsed] at search
  | ok root =>
    simp only [parsed, Except.ok.injEq] at search
    subst search
    exact ⟨segments, root, divided, by rw [Template.encoded, encodedOf_markRaw, parsed], rfl⟩

/-- What compiles has tags. -/
theorem tagged_of_compile {config : Config} {source : Text} {base : Nat} {compiled : Compiled}
    (compiles : Template.compile config source base = .ok compiled) : config.emptyDelimiter? = none := by
  cases empty : config.emptyDelimiter? with
  | none => rfl
  | some delimiter => simp [Template.compile, empty] at compiles

/-- The marks of a compiled template are numbered, and belong to its source. -/
theorem numbered_of_compile {config : Config} {source : Text} {base : Nat} {compiled : Compiled}
    (compiles : Template.compile config source base = .ok compiled) :
    Numbered config base (marksOf compiled.template.segments) ∧
      filledOf (Occurrence.source config) (marksOf compiled.template.segments) = source := by
  obtain ⟨segments, raw, divided, _, rfl⟩ := compile_eq_ok compiles
  obtain ⟨numbered, source_eq⟩ := (numbered_of_ofSource divided).1.marked raw
  rw [marksOf_markRaw]
  refine ⟨numbered, ?_⟩
  rw [source_eq, ← source_eq_filledOf, Segment.source_of_ofSource divided]

/-- A source with occurrences compiles when its encoded document can be read. -/
theorem compile_of_parse {config : Config} {source : Text} {base : Nat} {segments : List Segment}
    {root : Document.Node} (tagged : config.emptyDelimiter? = none)
    (divided : Segment.ofSource config source base = .ok segments) (some : occurrencesOf segments ≠ [])
    (parsed : Document.parse (encodedOf segments) = .ok root) :
    Template.compile config source base =
      .ok ⟨⟨source, config, markRaw (rawTokens source (occurrencesOf segments) root) segments⟩,
        rawTokens source (occurrencesOf segments) root⟩ := by
  simp only [Template.compile, tagged, divided, Template.findRaw, if_neg some, parsed]

/-- The marks of a compiled template encode its source. -/
theorem encodes_of_compile {config : Config} {source : Text} {base : Nat} {compiled : Compiled}
    (fits : Supply.fits source base = true) (bounded : base < Code.baseBound)
    (compiles : Template.compile config source base = .ok compiled) :
    Encodes config source base (marksOf compiled.template.segments) := by
  obtain ⟨numbered, source_eq⟩ := numbered_of_compile compiles
  exact ⟨numbered, source_eq, fits, bounded⟩

/-- An occurrence among the marks of segments is an occurrence among the segments. -/
theorem segments_split {segments : List Segment} {front back : List Mark} {found : Occurrence}
    (split : marksOf segments = front ++ .occurrence found :: back) :
    ∃ before after, segments = before ++ .occurrence found :: after ∧ marksOf before = front ∧
      marksOf after = back := by
  induction segments generalizing front with
  | nil => simp at split
  | cons segment rest ih =>
    cases segment with
    | literal text =>
      obtain ⟨later, rfl, rest_eq⟩ := split_after_characters split
      obtain ⟨before, after, rfl, rfl, rfl⟩ := ih rest_eq
      exact ⟨.literal text :: before, after, rfl, rfl, rfl⟩
    | occurrence other =>
      cases front with
      | nil =>
        simp only [marksOf_cons, Segment.marks, List.singleton_append, List.nil_append, List.cons.injEq,
          Mark.occurrence.injEq] at split
        exact ⟨[], rest, by rw [split.1]; rfl, rfl, split.2⟩
      | cons mark front =>
        simp only [marksOf_cons, Segment.marks, List.cons_append, List.nil_append, List.cons.injEq] at split
        obtain ⟨before, after, rfl, rfl, rfl⟩ := ih split.2
        exact ⟨.occurrence other :: before, after, rfl, by rw [← split.1]; rfl, rfl⟩

end Stencil
