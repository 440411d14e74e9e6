import Stencil.Proofs.Code.Allocation
import Stencil.Proofs.Template.Acceptance

/-! The encoded document as a change to the source. Each occurrence covers a
span of bytes of the source; when the spans are exchanged for the codes that
the allocator of the source gives out, one after the other, the result is the
encoded document. None of these codes occurs in the source, so no part of the
source can be taken for one. -/
namespace Stencil

/-- A span of bytes of a text, and what is to stand there instead. -/
structure Exchange where
  first : Nat
  last : Nat
  text : Text
deriving DecidableEq

/-- Carries out exchanges in a text that begins at a byte offset. They come in
ascending order without overlap, and their spans do not cut characters. -/
def Text.exchange? : (start : Nat) → Text → List Exchange → Option Text
  | _, text, [] => some text
  | start, text, exchange :: later =>
    if start ≤ exchange.first ∧ exchange.first ≤ exchange.last then do
      let (kept, rest) ← cut? text (exchange.first - start)
      let (_, rest) ← cut? rest (exchange.last - exchange.first)
      let done ← exchange? exchange.last rest later
      return kept ++ exchange.text ++ done
    else none

/-- The exchange of an occurrence in the source for what `fill` tells. -/
def Occurrence.exchanged (config : Config) (fill : Occurrence → Text) (found : Occurrence) : Exchange :=
  ⟨found.position, found.position + Text.size (found.source config), fill found⟩

/-- The exchange of an occurrence in the source for its code. -/
def Occurrence.forCode (config : Config) (found : Occurrence) : Exchange :=
  ⟨found.position, found.position + Text.size (found.source config), found.code.digits⟩

variable {config : Config} {text front back : Text} {base : Nat} {segments : List Segment}

/-! ### Exchanges -/

/-- A cut behind the first part of a text is a cut of the rest. -/
theorem Text.cut?_append_add (front back : Text) (offset : Nat) :
    cut? (front ++ back) (size front + offset) = (cut? back offset).map fun (kept, rest) => (front ++ kept, rest) := by
  ext1 cut
  obtain ⟨kept, rest⟩ := cut
  rw [Option.map_eq_some_iff, cut?_eq_some_iff]
  constructor
  · rintro ⟨division, size_eq⟩
    rcases List.append_eq_append_iff.mp division with ⟨more, rfl, rfl⟩ | ⟨more, rfl, rfl⟩
    · refine ⟨(more, rest), cut?_eq_some_iff.mpr ⟨rfl, ?_⟩, rfl⟩
      rw [size_append] at size_eq
      omega
    · have none : more = [] := by
        rw [← size_eq_zero_iff]
        rw [size_append] at size_eq
        omega
      subst none
      refine ⟨([], back), ?_, by simp⟩
      rw [List.append_nil] at size_eq
      rw [show offset = 0 by omega, cut?_zero]
  · rintro ⟨⟨inner, last⟩, cut, same⟩
    obtain ⟨rfl, rfl⟩ := Prod.mk.inj same
    obtain ⟨rfl, rfl⟩ := cut?_eq_some_iff.mp cut
    rw [size_append, List.append_assoc]
    exact ⟨rfl, rfl⟩

/-- Text in front of all spans is kept. -/
theorem Text.exchange?_append {start : Nat} {exchanges : List Exchange}
    (behind : ∀ exchange ∈ exchanges, start + size front ≤ exchange.first) :
    exchange? start (front ++ back) exchanges =
      (exchange? (start + size front) back exchanges).map (front ++ ·) := by
  cases exchanges with
  | nil => rfl
  | cons exchange later =>
    have place := behind exchange (List.mem_cons_self ..)
    have offset : exchange.first - start = size front + (exchange.first - (start + size front)) := by omega
    by_cases ordered : exchange.first ≤ exchange.last
    · rw [exchange?, exchange?, if_pos ⟨by omega, ordered⟩, if_pos ⟨place, ordered⟩, offset, cut?_append_add]
      cases cut? back (exchange.first - (start + size front)) with
      | none => rfl
      | some cut =>
        obtain ⟨kept, rest⟩ := cut
        simp [Option.map_bind]
    · rw [exchange?, exchange?, if_neg (by simp [ordered]), if_neg (by simp [ordered])]
      rfl

/-- An exchange at the very beginning puts its text in front of what the others do. -/
theorem Text.exchange?_here {start : Nat} {old new : Text} {exchanges : List Exchange} :
    exchange? start (old ++ back) (⟨start, start + size old, new⟩ :: exchanges) =
      (exchange? (start + size old) back exchanges).map (new ++ ·) := by
  have ordered : start ≤ start ∧ start ≤ start + size old := by omega
  rw [exchange?, if_pos ordered, Nat.sub_self, cut?_zero, Nat.add_sub_cancel_left]
  simp [cut?_append, Option.map_eq_bind]

/-- **Filling in marks is exchanging occurrences.** When the spans of the
occurrences of a source are exchanged for other texts, the result is made of the
same marks with the other texts in them. -/
theorem Numbered.exchange? {front back : List Mark} (numbered : Numbered config base (front ++ back))
    (fill : Occurrence → Text) :
    Text.exchange? (Text.size (filledOf (Occurrence.source config) front))
        (filledOf (Occurrence.source config) back)
        ((back.filterMap Mark.occurrence?).map (Occurrence.exchanged config fill)) =
      some (filledOf fill back) := by
  induction back generalizing front with
  | nil => rfl
  | cons mark back ih =>
    have rest := ih (by simpa using numbered : Numbered config base (front ++ [mark] ++ back))
    rw [filledOf_append, Text.size_append, filledOf_cons, filledOf_nil, List.append_nil] at rest
    rw [filledOf_cons, filledOf_cons]
    cases mark with
    | character char =>
      have behind : ∀ exchange ∈ (back.filterMap Mark.occurrence?).map (Occurrence.exchanged config fill),
          Text.size (filledOf (Occurrence.source config) front) + Text.size [char] ≤ exchange.first := by
        intro exchange member
        obtain ⟨found, present, rfl⟩ := List.mem_map.mp member
        obtain ⟨before, after, rfl⟩ := List.append_of_mem (Encodes.mem_occurrences.mp present)
        obtain ⟨position, _, _⟩ := numbered (front ++ .character char :: before) found after (by simp)
        simp only [Occurrence.exchanged, position, filledOf_append, filledOf_cons, Text.size_append, Mark.filled]
        omega
      exact (Text.exchange?_append behind).trans (congrArg (Option.map ([char] ++ ·)) rest)
    | occurrence found =>
      obtain ⟨position, _, _⟩ := numbered front found back rfl
      rw [List.filterMap_cons, Mark.occurrence?, List.map_cons, Occurrence.exchanged, position]
      exact Text.exchange?_here.trans (congrArg (Option.map (fill found ++ ·)) rest)

/-! ### Calls of the allocator -/

/-- Numbering an occurrence is a call of the allocator: it takes the code, or
stops because there is none. -/
theorem number_occurrence_eq (allocator : Allocator) (position : Nat) (name : Text) (pieces : List Piece) :
    Segment.number config allocator.base position allocator.next (.occurrence name :: pieces) =
      match allocator.call with
      | (some code, later) =>
        (Segment.number config later.base (position + Text.size (Piece.source config (.occurrence name)))
          later.next pieces).map (.occurrence ⟨name, position, code, .string⟩ :: ·)
      | (none, _) => .error (.tooManyMacros position Code.limit) := by
  rw [Segment.number, Allocator.call]
  cases Code.nth? allocator.base allocator.next with
  | none => rfl
  | some code => rfl

/-- The occurrences get what the calls give, one after the other. -/
theorem codes_of_number {allocator : Allocator} {position : Nat} {pieces : List Piece}
    (numbered : Segment.number config allocator.base position allocator.next pieces = .ok segments) :
    (occurrencesOf segments).map (fun found => some found.code) =
      (List.range (occurrencesOf segments).length).map allocator.result := by
  induction pieces generalizing allocator position segments with
  | nil =>
    obtain rfl := Except.ok.inj numbered
    rfl
  | cons piece pieces ih =>
    cases piece with
    | literal text =>
      obtain ⟨rest, inner, rfl⟩ := number_literal_eq_ok numbered
      have given := ih inner
      exact given
    | occurrence name =>
      rw [number_occurrence_eq] at numbered
      cases given : allocator.call with
      | mk code? later =>
        cases code? with
        | none => simp [given] at numbered
        | some code =>
          simp only [given] at numbered
          cases inner : Segment.number config later.base
              (position + Text.size (Piece.source config (.occurrence name))) later.next pieces with
          | error error => simp [inner, Except.map] at numbered
          | ok rest =>
            simp only [inner, Except.map, Except.ok.injEq] at numbered
            subst numbered
            have first : allocator.result 0 = some code := by rw [Allocator.result, given]
            have others (index : Nat) : allocator.result (index + 1) = later.result index := by
              rw [Allocator.result, given]
            have rest_codes := ih inner
            show some code :: (occurrencesOf rest).map (fun found => some found.code) =
              (List.range ((occurrencesOf rest).length + 1)).map allocator.result
            rw [List.range_succ_eq_map, List.map_cons, List.map_map, first, rest_codes]
            congr 1
            exact List.map_congr_left fun index _ => (others index).symm

/-- The codes of a compiled source are the results of the calls, in order. -/
theorem codes_of_compile {compiled : Compiled} (compiles : Template.compile config text base = .ok compiled) :
    compiled.template.occurrences.map (fun found => some found.code) =
      (List.range compiled.template.occurrences.length).map (Allocator.result ⟨base, 0⟩) := by
  obtain ⟨segments, raw, divided, _, rfl⟩ := compile_eq_ok compiles
  have given : (occurrencesOf segments).map (fun found => some found.code) =
      (List.range (occurrencesOf segments).length).map (Allocator.result ⟨base, 0⟩) := codes_of_number divided
  rw [Template.occurrences, occurrencesOf_markRaw, List.length_map, ← given, List.map_map]
  congr 1
  funext found
  rw [Function.comp_apply, Occurrence.marked_code]

/-- The code of an occurrence tells how many others there are in front of it. -/
theorem code_of_compile {compiled : Compiled} (compiles : Template.compile config text base = .ok compiled)
    {index : Nat} {found : Occurrence} (place : compiled.template.occurrences[index]? = some found) :
    found.code = ⟨base, index⟩ := by
  have given := congrArg (fun results => results[index]?) (codes_of_compile compiles)
  obtain ⟨inside, _⟩ := List.getElem?_eq_some_iff.mp place
  simp only [List.getElem?_map, place, Option.map_some, List.getElem?_range inside, Option.some.injEq] at given
  exact (Allocator.result_eq_some_iff.mp given.symm).2

/-- Exchanging the occurrences of a compiled source fills in its marks. -/
theorem exchanged_of_compile {compiled : Compiled} (compiles : Template.compile config text base = .ok compiled)
    (fill : Occurrence → Text) :
    Text.exchange? 0 text (compiled.template.occurrences.map (Occurrence.exchanged config fill)) =
      some (filledOf fill (marksOf compiled.template.segments)) := by
  obtain ⟨numbered, source_eq⟩ := numbered_of_compile compiles
  have exchanged := Numbered.exchange? (by rwa [List.nil_append] : Numbered config base ([] ++ _)) fill
  rwa [source_eq, ← occurrencesOf_eq_filterMap] at exchanged

/-- The encoded document of a compiled source is the source with the codes of its occurrences. -/
theorem exchange?_of_compile {compiled : Compiled} (compiles : Template.compile config text base = .ok compiled) :
    Text.exchange? 0 text (compiled.template.occurrences.map (Occurrence.forCode config)) =
      some compiled.template.encoded := by
  rw [Template.encoded, encodedOf_eq_filledOf]
  exact exchanged_of_compile compiles Occurrence.encoded

/-- **Codes never collide with the text.** Let a supply give numbers that do
not fit a text and then a base that does. The call of the allocator after
`index` others gives the code that stands for `base * 10 ^ 9 + index`, as long
as `index` is below `10 ^ 9`, and nothing afterwards. The codes ascend, no two
of them are equal, and the decimal form of none occurs in the text. When the
text compiles, its occurrences have the codes of the calls in order, and the
encoded document is the text with the span of each occurrence exchanged for the
decimal form of its code. -/
theorem codes_never_collide {supply : Supply} {count : Nat}
    (unfit : ∀ earlier < count, Supply.fits text (supply.nth earlier) = false)
    (nth_eq : supply.nth count = base) (fits : Supply.fits text base = true) :
    (∀ index < 10 ^ 9, ∃ code, (Allocator.ofSupply text supply).result index = some code ∧
      code.digits = Decimal.digits (base * 10 ^ 9 + index) ∧ Text.occurs code.digits text = false) ∧
    (∀ index ≥ 10 ^ 9, (Allocator.ofSupply text supply).result index = none) ∧
    (∀ earlier later left right, earlier < later →
      (Allocator.ofSupply text supply).result earlier = some left →
      (Allocator.ofSupply text supply).result later = some right →
      left < right ∧ left ≠ right ∧ left.digits ≠ right.digits) ∧
    ∀ (config : Config) (template : Template), (Template.make config text supply).result = .ok template →
      template.occurrences.map (fun found => some found.code) =
        (List.range template.occurrences.length).map (Allocator.ofSupply text supply).result ∧
      (∀ index found, template.occurrences[index]? = some found → found.code = (⟨base, index⟩ : Code)) ∧
      Text.exchange? 0 text (template.occurrences.map (Occurrence.forCode config)) = some template.encoded := by
  have positive : 0 < base := pos_of_fits fits
  have allocator_eq : Allocator.ofSupply text supply = ⟨base, 0⟩ := by
    subst nth_eq
    exact Allocator.ofSupply_eq unfit fits
  rw [allocator_eq]
  refine ⟨fun index below => ?_, fun index beyond => ?_, fun earlier later left right order first second => ?_,
    fun config template made => ?_⟩
  · refine ⟨⟨base, index⟩, Allocator.result_eq_some_iff.mpr ⟨below, rfl⟩, ?_, ?_⟩
    · exact Code.digits_eq_digits_toNat positive below
    · exact Code.not_occurs_digits fits
  · rw [Option.eq_none_iff_forall_ne_some]
    intro code given
    obtain ⟨below, _⟩ := Allocator.result_eq_some_iff.mp given
    exact Nat.not_lt.mpr beyond below
  · obtain ⟨_, rfl⟩ := Allocator.result_eq_some_iff.mp first
    obtain ⟨_, rfl⟩ := Allocator.result_eq_some_iff.mp second
    have less : (⟨base, earlier⟩ : Code) < ⟨base, later⟩ := .inr ⟨rfl, order⟩
    refine ⟨less, Code.ne_of_lt less, fun same => ?_⟩
    exact Code.ne_of_lt less (Code.digits_injective same rfl)
  · have drawn : (Supply.draw text supply).base = base := congrArg Allocator.base allocator_eq
    obtain ⟨compiled, compiles, rfl⟩ := exists_compiled_of_make made
    rw [drawn] at compiles
    exact ⟨codes_of_compile compiles, fun index found => code_of_compile compiles, exchange?_of_compile compiles⟩

/-- The second number that is drawn for the sample fits it, and its third code stands in the sample's last place. -/
theorem third_code_of_sample :
    (∃ code, (Allocator.ofSupply sampleSource ⟨[0, 7], 1⟩).result 2 = some code ∧
      code.digits = Decimal.digits (7 * 10 ^ 9 + 2) ∧ Text.occurs code.digits sampleSource = false) ∧
    Text.exchange? 0 sampleSource ((occurrencesOf sampleSegments).map (Occurrence.forCode sampleConfig)) =
      some (encodedOf sampleSegments) := by
  have unfit : ∀ earlier < 1, Supply.fits sampleSource (Supply.nth ⟨[0, 7], 1⟩ earlier) = false := by decide
  have drawn : (Supply.draw sampleSource ⟨[0, 7], 1⟩).base = 7 := Supply.base_draw unfit (by decide)
  have made : (Template.make sampleConfig sampleSource ⟨[0, 7], 1⟩).result =
      .ok ⟨sampleSource, sampleConfig, markRaw sampleRaw sampleSegments⟩ := by
    rw [result_make, drawn, compile_sample]
    rfl
  obtain ⟨numbers, _, _, templates⟩ := codes_never_collide unfit rfl (by decide)
  obtain ⟨_, _, exchanged⟩ := templates sampleConfig _ made
  rw [Template.encoded, encodedOf_markRaw] at exchanged
  exact ⟨numbers 2 (by decide), exchanged⟩

end Stencil
