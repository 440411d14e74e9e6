import Stencil.Template.Expansion
import Stencil.Proofs.Template.Classification
import Stencil.Proofs.Template.Lockstep
import Stencil.Proofs.Template.SourcePlaces

/-! The base of the codes makes no difference. With any two bases that fit the
source, compiling fails with the same error, or gives templates that differ in
the bases of their codes only. The encoded documents are the same marks filled
in with different whole numbers, so they are read in lockstep; and a token that
is a code in one of them is the code of the same occurrence in the other. -/
namespace Stencil

/-! ### Other bases -/

/-- An occurrence whose code has another base. -/
def Occurrence.rebased (base : Nat) (found : Occurrence) : Occurrence :=
  { found with code := { found.code with base := base } }

/-- A segment whose code, if it has one, has another base. -/
def Segment.rebased (base : Nat) : Segment → Segment := Segment.mapOccurrence (Occurrence.rebased base)

/-- The same marks with codes of another base. -/
abbrev rebasedMarks (base : Nat) (marks : List Mark) : List Mark :=
  marks.map (Mark.mapOccurrence (Occurrence.rebased base))

/-- The same template with codes of another base. -/
def Template.rebased (base : Nat) (template : Template) : Template :=
  { template with segments := template.segments.map (Segment.rebased base) }

/-- The same outcome with codes of another base. -/
def Compiled.rebased (base : Nat) (compiled : Compiled) : Compiled where
  template := compiled.template.rebased base
  rawTokens := compiled.rawTokens.map (Occurrence.rebased base)

variable {config : Config} {source : Text} {left right : Nat} {segments : List Segment} {marks : List Mark}

/-- What numbering finds out does not depend on the base. -/
theorem number_rebased (position offset : Nat) (pieces : List Piece) :
    Segment.number config right position offset pieces =
      (Segment.number config left position offset pieces).map (List.map (Segment.rebased right)) := by
  induction pieces generalizing position offset with
  | nil => rfl
  | cons piece pieces ih =>
    cases piece with
    | literal text =>
      rw [Segment.number, Segment.number, ih]
      cases Segment.number config left (position + Text.size text) offset pieces <;> rfl
    | occurrence name =>
      simp only [Segment.number, Code.nth?]
      by_cases below : offset < Code.limit
      · simp only [if_pos below]
        rw [ih]
        cases Segment.number config left (position + Text.size (Piece.source config (.occurrence name)))
          (offset + 1) pieces <;> rfl
      · simp only [if_neg below]
        rfl

theorem marksOf_rebased (base : Nat) (segments : List Segment) :
    marksOf (segments.map (Segment.rebased base)) = rebasedMarks base (marksOf segments) :=
  marksOf_map (Occurrence.rebased base) segments

theorem occurrencesOf_rebased (base : Nat) (segments : List Segment) :
    occurrencesOf (segments.map (Segment.rebased base)) = (occurrencesOf segments).map (Occurrence.rebased base) :=
  occurrencesOf_map (Occurrence.rebased base) segments

/-- Marking finds the same occurrences again in another base. -/
theorem markRaw_rebased {raw : List Occurrence}
    (same : ∀ other ∈ raw, other.code.base = left)
    (codes : ∀ found ∈ occurrencesOf segments, found.code.base = left) :
    markRaw (raw.map (Occurrence.rebased right)) (segments.map (Segment.rebased right)) =
      (markRaw raw segments).map (Segment.rebased right) := by
  have agree {found other : Occurrence} (base : found.code.base = left) (base' : other.code.base = left) :
      (other.rebased right).code = (found.rebased right).code ↔ other.code = found.code := by
    obtain ⟨_, _, ⟨_, offset⟩, _⟩ := found
    obtain ⟨_, _, ⟨_, offset'⟩, _⟩ := other
    subst base
    subst base'
    simp [Occurrence.rebased]
  simp only [markRaw, List.map_map]
  refine List.map_congr_left fun segment member => ?_
  cases segment with
  | literal text => rfl
  | occurrence found =>
    have base : found.code.base = left := codes found (List.mem_filterMap.mpr ⟨_, member, rfl⟩)
    have isRaw : (raw.map (Occurrence.rebased right)).any
        (fun other => decide (other.code = (found.rebased right).code)) =
        raw.any fun other => decide (other.code = found.code) := by
      rw [Bool.eq_iff_iff]
      simp only [List.any_map, List.any_eq_true, Function.comp_apply, decide_eq_true_eq]
      constructor
      · rintro ⟨other, inRaw, equal⟩
        exact ⟨other, inRaw, (agree base (same other inRaw)).mp equal⟩
      · rintro ⟨other, inRaw, equal⟩
        exact ⟨other, inRaw, (agree base (same other inRaw)).mpr equal⟩
    simp only [Function.comp_apply, Segment.rebased, Segment.mapOccurrence, isRaw]
    split <;> rfl

/-! ### Reading with another base -/

/-- Marks with their own codes, and with codes of another base. -/
def Twins.withBase (marks : List Mark) (base : Nat) : Twins where
  marks := marks
  left := Occurrence.encoded
  right found := (found.rebased base).encoded

theorem Code.Usable.numeral {code : Code} (usable : code.Usable) : Document.Numeral code.digits where
  digits _ member := Code.isDigit_of_mem_digits member
  first := Code.head_digits_ne_zero usable.base_pos
  long := by
    have longer := Code.offsetWidth_lt_length_digits usable.offset_lt
    exact Nat.le_of_lt (Nat.lt_trans (by decide) longer)

/-- The second text of the marks is the first text of the marks with the other base. -/
theorem Twins.filledOf_withBase (base : Nat) (part : List Mark) :
    filledOf (Twins.withBase marks base).right part = filledOf Occurrence.encoded (rebasedMarks base part) := by
  rw [filledOf_map]
  rfl

theorem mem_rebasedMarks {base : Nat} {found : Occurrence} (member : .occurrence found ∈ marks) :
    .occurrence (found.rebased base) ∈ rebasedMarks base marks :=
  List.mem_map.mpr ⟨_, member, rfl⟩

/-- The base that was there before comes back. -/
theorem rebasedMarks_rebasedMarks (codes : CodesOf left marks) :
    rebasedMarks left (rebasedMarks right marks) = marks := by
  rw [rebasedMarks, rebasedMarks, List.map_map]
  conv_rhs => rw [← List.map_id marks]
  refine List.map_congr_left fun mark member => ?_
  cases mark with
  | character char => rfl
  | occurrence found =>
    obtain ⟨same, _⟩ := codes found member
    simp [Mark.mapOccurrence, Occurrence.rebased, ← same]

/-- Another base that fits the source serves as well. -/
theorem Encodes.rebased (encodes : Encodes config source left marks) (fits : Supply.fits source right = true)
    (bounded : right < Code.baseBound) : Encodes config source right (rebasedMarks right marks) :=
  encodes.map (fun _ => ⟨rfl, rfl⟩) (fun _ _ => rfl) fits bounded

theorem Encodes.numeric (encodes : Encodes config source left marks) (fits : Supply.fits source right = true)
    (bounded : right < Code.baseBound) : (Twins.withBase marks right).Numeric where
  left _ member := (encodes.usable member).numeral
  right _ member := ((encodes.rebased fits bounded).usable (mem_rebasedMarks member)).numeral

/-- A text that is the code of an occurrence is the code of the same occurrence in another base. -/
theorem Encodes.sameText_code (encodes : Encodes config source left marks) {text other : Text}
    (same : (Twins.withBase marks right).SameText text other) {found : Occurrence}
    (member : .occurrence found ∈ marks) (text_eq : text = found.code.digits) :
    other = (found.rebased right).code.digits := by
  obtain ⟨part, inside, part_eq, rfl⟩ := same
  obtain ⟨code_base, offset_lt⟩ := encodes.codesOf found member
  have whole : filledOf Occurrence.encoded part = [] ++ found.code.digits ++ [] := by
    rw [List.nil_append, List.append_nil, ← text_eq, part_eq]
    rfl
  obtain ⟨before, place, after, rfl, code_eq, before_eq, after_eq⟩ :=
    code_place (encodes.codesOf.mono inside) (encodes.untouched.mono inside) code_base offset_lt whole
      (fun _ none => by cases none) (fun _ none => by cases none)
  obtain rfl := filledOf_eq_nil before_eq
  obtain rfl := filledOf_eq_nil after_eq
  obtain rfl := encodes.eq_of_code member (inside.subset (by simp)) code_eq.symm
  simp [Twins.withBase, Mark.filled, Occurrence.encoded]

/-- A token that is the raw use of an occurrence is that in another base, too. -/
theorem Encodes.rawOccurrence?_rebased (encodes : Encodes config source left marks)
    (fits : Supply.fits source right = true) (bounded : right < Code.baseBound)
    {token other : Document.Token} (same : (Twins.withBase marks right).SameToken token other) {found : Occurrence}
    (raw : rawOccurrence? source (marks.filterMap Mark.occurrence?) token = some found) :
    rawOccurrence? source ((rebasedMarks right marks).filterMap Mark.occurrence?) other =
      some (found.rebased right) := by
  obtain ⟨text_eq, known, noQuote⟩ := rawOccurrence?_eq_some raw
  have member := mem_occurrences.mp known
  have member' : .occurrence (found.rebased right) ∈ rebasedMarks right marks := mem_rebasedMarks member
  cases same with
  | key same =>
    exact (encodes.rebased fits bounded).lookup member' (encodes.sameText_code same member text_eq)
      fun _ _ => noQuote _ rfl
  | integer same =>
    exact (encodes.rebased fits bounded).lookup member' (encodes.sameText_code same member text_eq) nofun

/-- Texts that are made of the same marks are so the other way round. -/
theorem Encodes.sameText_swap (encodes : Encodes config source left marks) {text other : Text}
    (same : (Twins.withBase marks right).SameText text other) :
    (Twins.withBase (rebasedMarks right marks) left).SameText other text := by
  obtain ⟨part, inside, rfl, rfl⟩ := same
  refine ⟨rebasedMarks right part, inside.map _, Twins.filledOf_withBase .., ?_⟩
  rw [Twins.filledOf_withBase, rebasedMarks_rebasedMarks (encodes.codesOf.mono inside)]
  rfl

theorem Encodes.sameToken_swap (encodes : Encodes config source left marks) {token other : Document.Token}
    (same : (Twins.withBase marks right).SameToken token other) :
    (Twins.withBase (rebasedMarks right marks) left).SameToken other token := by
  cases same with
  | key same => exact .key (encodes.sameText_swap same)
  | integer same => exact .integer (encodes.sameText_swap same)

/-- Tokens that are made of the same marks are raw uses of the same occurrence, or of none. -/
theorem Encodes.rawOccurrence?_eq (encodes : Encodes config source left marks)
    (fits : Supply.fits source right = true) (bounded : right < Code.baseBound)
    {token other : Document.Token} (same : (Twins.withBase marks right).SameToken token other) :
    rawOccurrence? source ((rebasedMarks right marks).filterMap Mark.occurrence?) other =
      (rawOccurrence? source (marks.filterMap Mark.occurrence?) token).map (Occurrence.rebased right) := by
  cases raw : rawOccurrence? source (marks.filterMap Mark.occurrence?) token with
  | some found => exact encodes.rawOccurrence?_rebased fits bounded same raw
  | none =>
    cases raw' : rawOccurrence? source ((rebasedMarks right marks).filterMap Mark.occurrence?) other with
    | none => rfl
    | some found =>
      have found_raw := (encodes.rebased fits bounded).rawOccurrence?_rebased encodes.fits encodes.base_lt
        (encodes.sameToken_swap same) raw'
      rw [rebasedMarks_rebasedMarks encodes.codesOf, raw] at found_raw
      cases found_raw

/-- Documents with the same tokens have the same raw occurrences. -/
theorem Encodes.rawTokens_rebased (encodes : Encodes config source left marks)
    (fits : Supply.fits source right = true) (bounded : right < Code.baseBound)
    {root root' : Document.Node} (same : (Twins.withBase marks right).SameNode root root') :
    rawTokens source ((rebasedMarks right marks).filterMap Mark.occurrence?) root' =
      (rawTokens source (marks.filterMap Mark.occurrence?) root).map (Occurrence.rebased right) := by
  unfold rawTokens
  unfold Twins.SameNode Twins.SameTokens at same
  generalize root.tokens = tokens at same
  generalize root'.tokens = others at same
  induction same with
  | nil => rfl
  | cons token tokens ih =>
    rw [List.filterMap_cons, List.filterMap_cons, encodes.rawOccurrence?_eq fits bounded token, ih]
    cases rawOccurrence? source (marks.filterMap Mark.occurrence?) _ <;> rfl

/-! ### Compiling with another base -/

/-- The source begins with a character at every mark. -/
theorem Mark.exists_head (tagged : config.startTag ≠ []) (mark : Mark) :
    ∃ character, (mark.filled (Occurrence.source config)).head? = some character := by
  cases mark with
  | character char => exact ⟨char, rfl⟩
  | occurrence found =>
    obtain ⟨first, tag, startTag_eq⟩ := List.exists_cons_of_ne_nil tagged
    exact ⟨first, by simp [Mark.filled, Occurrence.source, startTag_eq]⟩

theorem head?_encoded_ne_none (mark : Mark) (rest : List Mark) :
    (filledOf Occurrence.encoded (mark :: rest)).head? ≠ none := by
  intro none
  rw [List.head?_eq_none_iff] at none
  cases filledOf_eq_nil none

/-- The same mark of both documents is the same place of the source. -/
theorem Encodes.errorInSource_rebased (encodes : Encodes config source left (marksOf segments))
    (tagged : config.startTag ≠ []) (fits : Supply.fits source right = true) (bounded : right < Code.baseBound)
    {error other : Document.SyntaxError} (same : (Twins.withBase (marksOf segments) right).SameError error other) :
    Template.errorInSource config source (segments.map (Segment.rebased right)) other =
      Template.errorInSource config source segments error := by
  obtain ⟨front, back, split, position, position', found, found', expected⟩ := same
  cases back with
  | nil =>
    rw [filledOf_nil, List.head?_nil] at found found'
    simp only [Template.errorInSource, found, found', expected]
  | cons mark back =>
    have split' : marksOf (segments.map (Segment.rebased right)) = rebasedMarks right front ++
        mark.mapOccurrence (Occurrence.rebased right) :: rebasedMarks right back := by
      rw [marksOf_rebased, rebasedMarks, rebasedMarks, rebasedMarks, ← List.map_cons, ← List.map_append]
      exact congrArg _ split
    have source_eq' := (encodes.rebased fits bounded).source_eq
    rw [← marksOf_rebased] at source_eq'
    obtain ⟨character, first⟩ := mark.exists_head tagged
    have first' : ((mark.mapOccurrence (Occurrence.rebased right)).filled (Occurrence.source config)).head? =
        some character := by
      rw [← first]
      cases mark <;> rfl
    rw [Twins.filledOf_withBase] at position' found'
    have shown : error.found ≠ none := found ▸ head?_encoded_ne_none mark back
    have shown' : other.found ≠ none := found' ▸ head?_encoded_ne_none _ _
    rw [errorInSource_between encodes.source_eq split first position shown,
      errorInSource_between source_eq' split' first' position' shown', filledOf_map, expected]
    rfl

/-- The search for raw occurrences has the same outcome with another base. -/
theorem Encodes.findRaw_rebased (encodes : Encodes config source left (marksOf segments))
    (tagged : config.startTag ≠ []) (fits : Supply.fits source right = true) (bounded : right < Code.baseBound) :
    Template.findRaw config source (segments.map (Segment.rebased right)) =
      (Template.findRaw config source segments).map (List.map (Occurrence.rebased right)) := by
  by_cases absent : occurrencesOf segments = []
  · rw [Template.findRaw, Template.findRaw, if_pos absent, if_pos (by rw [occurrencesOf_rebased, absent]; rfl)]
    rfl
  · have present : ¬ occurrencesOf (segments.map (Segment.rebased right)) = [] := by
      rwa [occurrencesOf_rebased, List.map_eq_nil_iff]
    have parsed : Twins.SameResult _ _ (Document.parse (filledOf _ (marksOf segments)))
        (Document.parse (filledOf _ (marksOf segments))) := Twins.parse (encodes.numeric fits bounded)
    rw [Twins.filledOf_withBase, ← marksOf_rebased, ← encodedOf_eq_filledOf] at parsed
    change Twins.SameResult _ _ (Document.parse (filledOf Occurrence.encoded (marksOf segments))) _ at parsed
    rw [← encodedOf_eq_filledOf] at parsed
    rw [Template.findRaw, Template.findRaw, if_neg absent, if_neg present]
    generalize Document.parse (encodedOf segments) = result at parsed
    generalize Document.parse (encodedOf (segments.map (Segment.rebased right))) = result' at parsed
    cases parsed with
    | error same =>
      simp only [Except.map]
      rw [encodes.errorInSource_rebased tagged fits bounded same]
    | ok same =>
      have tokens := encodes.rawTokens_rebased fits bounded same
      rw [occurrences_map, ← occurrencesOf_eq_filterMap, ← occurrencesOf_rebased] at tokens
      simp only [Except.map, tokens]

theorem expandAll_rebased (values : Renderings) (base : Nat) (segments : List Segment) :
    Segment.expandAll config values (segments.map (Segment.rebased base)) =
      Segment.expandAll config values segments := by
  induction segments with
  | nil => rfl
  | cons segment rest ih =>
    have same : (segment.rebased base).expand config values = segment.expand config values := by
      cases segment <;> rfl
    rw [List.map_cons, Segment.expandAll, Segment.expandAll, ih, same]

/-- Only occurrences of the template are found to be raw. -/
theorem mem_of_findRaw {raw : List Occurrence} {found : Occurrence}
    (search : Template.findRaw config source segments = .ok raw) (member : found ∈ raw) :
    found ∈ occurrencesOf segments := by
  unfold Template.findRaw at search
  split at search
  · obtain rfl := Except.ok.inj search
    cases member
  · split at search
    · obtain rfl := Except.ok.inj search
      obtain ⟨token, _, isRaw⟩ := List.mem_filterMap.mp member
      exact (rawOccurrence?_eq_some isRaw).2.1
    · cases search

/-- Compiling with another base gives the same template with codes of that base, or the same error. -/
theorem compile_rebased (fits : Supply.fits source left = true) (bounded : left < Code.baseBound)
    (fits' : Supply.fits source right = true) (bounded' : right < Code.baseBound) :
    Template.compile config source right =
      (Template.compile config source left).map (Compiled.rebased right) := by
  unfold Template.compile
  cases empty : config.emptyDelimiter? with
  | some delimiter => rfl
  | none =>
    obtain ⟨tagged, _⟩ := Config.emptyDelimiter?_eq_none_iff.mp empty
    have renumbered : Segment.ofSource config source right =
        (Segment.ofSource config source left).map (List.map (Segment.rebased right)) :=
      number_rebased 0 0 (Piece.scan config source)
    simp only [renumbered]
    cases divided : Segment.ofSource config source left with
    | error error => rfl
    | ok segments =>
      obtain ⟨encodes, _⟩ := encodes_of_ofSource fits bounded divided
      simp only [Except.map, encodes.findRaw_rebased tagged fits' bounded']
      cases search : Template.findRaw config source segments with
      | error error => rfl
      | ok raw =>
        have codes : ∀ found ∈ occurrencesOf segments, found.code.base = left := by
          intro found member
          rw [occurrencesOf_eq_filterMap] at member
          exact (encodes.codesOf found (Encodes.mem_occurrences.mp member)).1
        have rawCodes : ∀ other ∈ raw, other.code.base = left := fun other isRaw =>
          codes other (mem_of_findRaw search isRaw)
        simp only [Compiled.rebased, Template.rebased, markRaw_rebased rawCodes codes]

/-- **The base makes no difference.** With two bases that fit the source, compiling
fails with the same error, or both templates have the same literal texts and the
same occurrences: the same names, positions, contexts and offsets of the codes.
Only the bases of the codes differ, so the same values give the same text, or the
same error. -/
theorem compile_base_independent (fits : Supply.fits source left = true) (bounded : left < Code.baseBound)
    (fits' : Supply.fits source right = true) (bounded' : right < Code.baseBound) :
    (∃ error, Template.compile config source left = .error error ∧
      Template.compile config source right = .error error) ∨
    ∃ compiled, Template.compile config source left = .ok compiled ∧
      Template.compile config source right = .ok (compiled.rebased right) ∧
      ∀ values, (compiled.rebased right).template.expand values = compiled.template.expand values := by
  have same : Template.compile config source right = _ := compile_rebased fits bounded fits' bounded'
  cases compiles : Template.compile config source left with
  | error error => exact .inl ⟨error, rfl, by rw [same, compiles]; rfl⟩
  | ok compiled =>
    refine .inr ⟨compiled, rfl, by rw [same, compiles]; rfl, fun values => ?_⟩
    exact expandAll_rebased values right compiled.template.segments

/-- The sample compiles to the same template with a longer base. -/
theorem compile_sample_rebased : Template.compile sampleConfig sampleSource 12 =
    .ok (Compiled.rebased 12 ⟨⟨sampleSource, sampleConfig, markRaw sampleRaw sampleSegments⟩, sampleRaw⟩) := by
  have fits : Supply.fits sampleSource 7 = true ∧ Supply.fits sampleSource 12 = true := by decide
  rcases @compile_base_independent sampleConfig sampleSource 7 12 fits.1 (by decide) fits.2 (by decide) with
    ⟨error, failed, _⟩ | ⟨compiled, compiles, compiles', _⟩
  · rw [compile_sample] at failed
    cases failed
  · rw [compile_sample] at compiles
    obtain rfl := Except.ok.inj compiles
    exact compiles'

end Stencil
