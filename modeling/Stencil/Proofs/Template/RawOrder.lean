import Mathlib.Data.List.Sort
import Stencil.Proofs.Template.Classification
import Stencil.Proofs.Template.Leftmost
import Stencil.Template.Log
import Stencil.Template.RawWalk

/-! The order in which raw occurrences are found. The tree of the encoded document
is walked in the order of its text, a key before its value, and a token that an
occurrence is found to be raw by stands where the occurrence does. So the walk
meets the raw occurrences in the order of the source, each of them once, and the
records of a compilation tell of them in that order. -/
namespace Stencil

open Document (Lexeme Node Denotes textOf)

variable {config : Config} {source : Text} {base : Nat} {marks : List Mark} {segments : List Segment}
  {lexemes : List Lexeme} {root : Node} {found : Occurrence}

/-! ### Walking the tree -/

section Walk

variable {Found : Type} (pick : Document.Token → Option Found)

private theorem filterMap_cons_toList (token : Document.Token) (tokens : List Document.Token) :
    (token :: tokens).filterMap pick = (pick token).toList ++ tokens.filterMap pick := by
  rw [List.filterMap_cons]
  cases pick token <;> rfl

mutual

/-- The walk goes through the tokens of a tree in their order. -/
theorem collect_eq (collected : List Found) (node : Node) :
    collect pick collected node = collected ++ node.tokens.filterMap pick := by
  cases node with
  | object members => rw [collect, collectMembers_eq, Node.tokens]
  | array items => rw [collect, collectItems_eq, Node.tokens]
  | integer digits => rw [collect, Node.tokens, filterMap_cons_toList, List.filterMap_nil, List.append_nil]
  | other => rw [collect, Node.tokens, List.filterMap_nil, List.append_nil]

theorem collectMembers_eq (collected : List Found) (members : List (Text × Node)) :
    collectMembers pick collected members = collected ++ (Document.tokensOfMembers members).filterMap pick := by
  match members with
  | [] => rw [collectMembers, Document.tokensOfMembers, List.filterMap_nil, List.append_nil]
  | (key, value) :: members =>
    rw [collectMembers, collectMembers_eq, collect_eq, Document.tokensOfMembers, List.cons_append,
      filterMap_cons_toList, List.filterMap_append]
    simp only [List.append_assoc]

theorem collectItems_eq (collected : List Found) (items : List Node) :
    collectItems pick collected items = collected ++ (Document.tokensOfItems items).filterMap pick := by
  match items with
  | [] => rw [collectItems, Document.tokensOfItems, List.filterMap_nil, List.append_nil]
  | item :: items =>
    rw [collectItems, collectItems_eq, collect_eq, Document.tokensOfItems, List.filterMap_append, List.append_assoc]

end

end Walk

/-! ### Occurrences by the places of their segments -/

/-- To look for an occurrence is to look for the place of its segment. -/
theorem find?_occurrencesOf (segments : List Segment) (wanted : Occurrence → Bool) :
    (occurrencesOf segments).find? wanted =
      (segments.findIdx? fun segment => segment.occurrence?.any wanted).bind (occurrenceAt? segments) := by
  induction segments with
  | nil => rfl
  | cons segment rest ih =>
    have behind : (occurrenceAt? (segment :: rest) ∘ fun index => index + 1) = occurrenceAt? rest := rfl
    rw [List.findIdx?_cons]
    cases segment with
    | literal text =>
      have skipped : occurrencesOf (.literal text :: rest) = occurrencesOf rest := rfl
      rw [skipped, ih, if_neg (by simp [Segment.occurrence?]), Option.bind_map, behind]
    | occurrence found =>
      have first : occurrencesOf (.occurrence found :: rest) = found :: occurrencesOf rest := rfl
      rw [first, List.find?_cons]
      by_cases here : wanted found = true
      · simp [here, Segment.occurrence?, occurrenceAt?]
      · simp only [Bool.not_eq_true] at here
        rw [if_neg (by simp [here, Segment.occurrence?]), Option.bind_map, behind, ← ih, here]

/-- A token stands for the occurrence at the place that it leads to. -/
theorem rawOccurrence?_eq (segments : List Segment) (token : Document.Token) :
    rawOccurrence? source (occurrencesOf segments) token =
      (rawIndex? source segments token).bind (occurrenceAt? segments) := by
  cases read : Code.ofDigits? token.text with
  | none => simp [rawOccurrence?, rawIndex?, read]
  | some code =>
    have search := find?_occurrencesOf segments fun found => found.code = code
    rw [← indexOf?] at search
    simp only [rawOccurrence?, rawIndex?, read, search, Option.bind_eq_bind, Option.bind_some]
    cases place : indexOf? segments code with
    | none => rfl
    | some index =>
      cases here : occurrenceAt? segments index with
      | none => cases token <;> simp [here]
      | some found =>
        cases token with
        | integer text => simp [here]
        | key text => by_cases quoted : followsQuote source found.position = true <;> simp [here, quoted]

theorem occurrenceAt?_eq_some_iff {index : Nat} :
    occurrenceAt? segments index = some found ↔ segments[index]? = some (.occurrence found) := by
  rw [occurrenceAt?]
  cases here : segments[index]? with
  | none => simp
  | some segment => cases segment <;> simp [Segment.occurrence?]

/-- The place that a token leads to is that of an occurrence. -/
theorem exists_occurrenceAt {token : Document.Token} {index : Nat}
    (leads : rawIndex? source segments token = some index) :
    ∃ found, occurrenceAt? segments index = some found ∧
      rawOccurrence? source (occurrencesOf segments) token = some found := by
  have isPlace : ∃ code, indexOf? segments code = some index := by
    simp only [rawIndex?, Option.bind_eq_bind, Option.bind_eq_some_iff] at leads
    obtain ⟨code, _, place, found, leads⟩ := leads
    cases token with
    | integer text =>
      obtain rfl := Option.some.inj leads
      exact ⟨code, found⟩
    | key text =>
      obtain ⟨_, _, leads⟩ := Option.bind_eq_some_iff.mp leads
      obtain rfl : place = index := by simpa using (Option.ite_none_left_eq_some.mp leads).2
      exact ⟨code, found⟩
  obtain ⟨code, isPlace⟩ := isPlace
  obtain ⟨inside, has, _⟩ := List.findIdx?_eq_some_iff_getElem.mp isPlace
  obtain ⟨found, here⟩ : ∃ found, segments[index].occurrence? = some found := by
    cases isOccurrence : segments[index].occurrence? with
    | none => simp [isOccurrence] at has
    | some found => exact ⟨found, rfl⟩
  have here : occurrenceAt? segments index = some found := by
    rw [occurrenceAt?, List.getElem?_eq_getElem inside, Option.bind_some, here]
  exact ⟨found, here, by rw [rawOccurrence?_eq, leads, Option.bind_some, here]⟩

/-- The walk collects the places of the occurrences that the tokens of the tree stand for. -/
theorem map_collect_eq (segments : List Segment) (root : Node) :
    (collect (rawIndex? source segments) [] root).map (occurrenceAt? segments) =
      (rawTokens source (occurrencesOf segments) root).map some := by
  rw [collect_eq, List.nil_append, rawTokens, List.map_filterMap, List.map_filterMap]
  congr 1
  funext token
  cases leads : rawIndex? source segments token with
  | none => rw [rawOccurrence?_eq, leads, Option.bind_none, Option.map_none, Option.map_none]
  | some index =>
    obtain ⟨found, here, raw⟩ := exists_occurrenceAt leads
    rw [raw, Option.map_some, Option.map_some, here]

/-! ### The order of the occurrences -/

/-- An occurrence that was numbered before another one. -/
def Occurrence.Precedes (earlier later : Occurrence) : Prop := earlier.code.offset < later.code.offset

instance : Std.Asymm Occurrence.Precedes := ⟨fun _ _ => Nat.lt_asymm⟩

/-- Occurrences among segments ascend in their numbers, so no two segments are the same one. -/
theorem Numbered.ascending_segments (numbered : Numbered config base (marksOf segments)) {index other : Nat}
    {found later : Occurrence} (here : occurrenceAt? segments index = some found)
    (there : occurrenceAt? segments other = some later) :
    index < other ↔ found.code.offset < later.code.offset := by
  have ascending := numbered.ascending
  rw [← occurrencesOf_eq_filterMap, occurrencesOf, List.pairwise_filterMap] at ascending
  have forward {index other : Nat} {found later : Occurrence} (here : occurrenceAt? segments index = some found)
      (there : occurrenceAt? segments other = some later) (before : index < other) :
      found.code.offset < later.code.offset := by
    obtain ⟨inside, here⟩ := List.getElem?_eq_some_iff.mp (occurrenceAt?_eq_some_iff.mp here)
    obtain ⟨inside', there⟩ := List.getElem?_eq_some_iff.mp (occurrenceAt?_eq_some_iff.mp there)
    have related := List.pairwise_iff_getElem.mp ascending index other inside inside' before
    rw [here, there] at related
    exact (related found rfl later rfl).1
  refine ⟨forward here there, fun less => ?_⟩
  rcases Nat.lt_trichotomy index other with before | rfl | after
  · exact before
  · rw [here] at there
    obtain rfl := Option.some.inj there
    exact absurd less (Nat.lt_irrefl _)
  · exact absurd (forward there here after) (Nat.lt_asymm less)

/-- No occurrence is in two places. -/
theorem Numbered.place_unique (numbered : Numbered config base (marksOf segments)) {index other : Nat}
    (here : occurrenceAt? segments index = some found) (there : occurrenceAt? segments other = some found) :
    index = other := by
  have notBefore := mt (numbered.ascending_segments here there).mp (Nat.lt_irrefl _)
  have notAfter := mt (numbered.ascending_segments there here).mp (Nat.lt_irrefl _)
  omega

namespace Encodes

/-- Of two lexemes that occurrences are found to be raw by, the one in front belongs to the earlier occurrence. -/
theorem offset_lt_of_raw {before between after : List Lexeme} {lexeme lexeme' : Lexeme} {later : Occurrence}
    (encodes : Encodes config source base marks)
    (denotes : Denotes (before ++ lexeme :: (between ++ lexeme' :: after)) root)
    (text_eq : textOf (before ++ lexeme :: (between ++ lexeme' :: after)) = filledOf Occurrence.encoded marks)
    {token token' : Document.Token} (isToken : lexeme.token? = some token) (isToken' : lexeme'.token? = some token')
    (raw : rawOccurrence? source (marks.filterMap Mark.occurrence?) token = some found)
    (raw' : rawOccurrence? source (marks.filterMap Mark.occurrence?) token' = some later) :
    found.code.offset < later.code.offset := by
  obtain ⟨shape, front, back, split, front_eq⟩ := encodes.raw_place denotes text_eq isToken raw
  have rearranged : before ++ lexeme :: (between ++ lexeme' :: after) =
      before ++ lexeme :: between ++ lexeme' :: after := by simp
  rw [rearranged] at denotes text_eq
  obtain ⟨_, front', back', split', front_eq'⟩ := encodes.raw_place denotes text_eq isToken' raw'
  have nonempty : lexeme.text ≠ [] := by
    rcases shape with rfl | rfl <;> exact Code.digits_ne_nil found.code
  have shorter : (filledOf Occurrence.encoded front).length < (filledOf Occurrence.encoded front').length := by
    have some := List.length_pos_iff.mpr nonempty
    rw [front_eq, front_eq', Document.textOf_append, Document.textOf_cons, List.length_append, List.length_append]
    omega
  have count := (encodes.numbered front found back split).2.1
  have count' := (encodes.numbered front' later back' split').2.1
  rcases List.append_eq_append_iff.mp (split.symm.trans split') with ⟨inner, rfl, tail⟩ | ⟨inner, rfl, tail⟩
  · cases inner with
    | nil => simp at shorter
    | cons mark inner =>
      obtain ⟨rfl, _⟩ := List.cons.inj (tail.trans (List.cons_append ..))
      rw [count, count', List.filterMap_append, List.length_append]
      simp [Mark.occurrence?]
  · rw [filledOf_append, List.length_append] at shorter
    omega

/-- The occurrences that the tokens of a document stand for come in the order of the source. -/
theorem rawTokens_ascending (encodes : Encodes config source base marks) (denotes : Denotes lexemes root)
    (text_eq : textOf lexemes = filledOf Occurrence.encoded marks) :
    (rawTokens source (marks.filterMap Mark.occurrence?) root).Pairwise Occurrence.Precedes := by
  have tokens : root.tokens = lexemes.filterMap Lexeme.token? := Document.Phrase.tokens denotes
  rw [rawTokens, tokens, List.filterMap_filterMap, List.pairwise_filterMap]
  refine pairwise_of_split fun before lexeme between lexeme' after split => ?_
  subst split
  intro found isRaw later isRaw'
  obtain ⟨token, isToken, raw⟩ := Option.bind_eq_some_iff.mp isRaw
  obtain ⟨token', isToken', raw'⟩ := Option.bind_eq_some_iff.mp isRaw'
  exact encodes.offset_lt_of_raw denotes text_eq isToken isToken' raw raw'

/-- No occurrence is found twice, and all that are found come in the order of the source. -/
theorem rawTokens_eq_filter (encodes : Encodes config source base marks)
    (contexts : ∀ found, .occurrence found ∈ marks → found.context = .string) (denotes : Denotes lexemes root)
    (text_eq : textOf lexemes = filledOf Occurrence.encoded marks) {raw : List Occurrence}
    (raw_eq : raw = rawTokens source (marks.filterMap Mark.occurrence?) root) :
    raw = (marks.filterMap Mark.occurrence?).filter fun found => (found.marked raw).context = .raw := by
  have ascending : raw.Pairwise Occurrence.Precedes := raw_eq ▸ encodes.rawTokens_ascending denotes text_eq
  have inOrder : (marks.filterMap Mark.occurrence?).Pairwise Occurrence.Precedes :=
    encodes.numbered.ascending.imp And.left
  refine ascending.eq_of_mem_iff (inOrder.filter _) fun found => ?_
  have known {found : Occurrence} (member : found ∈ raw) : .occurrence found ∈ marks := by
    rw [raw_eq, rawTokens] at member
    obtain ⟨token, _, isRaw⟩ := List.mem_filterMap.mp member
    exact mem_occurrences.mp (rawOccurrence?_eq_some isRaw).2.1
  rw [List.mem_filter, mem_occurrences, decide_eq_true_iff]
  constructor
  · intro member
    exact ⟨known member, (Occurrence.marked_context (contexts found (known member))).mpr ⟨found, member, rfl⟩⟩
  · rintro ⟨present, context⟩
    obtain ⟨other, member, same⟩ := (Occurrence.marked_context (contexts found present)).mp context
    rwa [← encodes.eq_of_code (known member) present same]

/-- The walk comes to the places of the raw occurrences from left to right. -/
theorem collect_ascending (encodes : Encodes config source base (marksOf segments)) (denotes : Denotes lexemes root)
    (text_eq : textOf lexemes = filledOf Occurrence.encoded (marksOf segments)) :
    (collect (rawIndex? source segments) [] root).Pairwise (· < ·) := by
  have ascending := encodes.rawTokens_ascending denotes text_eq
  rw [← occurrencesOf_eq_filterMap, rawTokens, List.pairwise_filterMap] at ascending
  rw [collect_eq, List.nil_append, List.pairwise_filterMap]
  refine ascending.imp fun {token token'} precedes index leads index' leads' => ?_
  obtain ⟨found, here, raw⟩ := exists_occurrenceAt leads
  obtain ⟨later, there, raw'⟩ := exists_occurrenceAt leads'
  exact (encodes.numbered.ascending_segments here there).mpr (precedes found raw later raw')

end Encodes

/-- What a walk has found when it has ended. -/
theorem findRaw_eq_ok {raw : List Occurrence} (encodes : Encodes config source base (marksOf segments))
    (contexts : ∀ found, .occurrence found ∈ marksOf segments → found.context = .string)
    (search : Template.findRaw config source segments = .ok raw) :
    (rawIndices source segments).Pairwise (· < ·) ∧
      (rawIndices source segments).map (occurrenceAt? segments) = raw.map some ∧
      raw = (occurrencesOf segments).filter fun found => (found.marked raw).context = .raw := by
  unfold Template.findRaw at search
  unfold rawIndices
  by_cases none : occurrencesOf segments = []
  · rw [if_pos none] at search
    obtain rfl := Except.ok.inj search
    rw [if_pos none, none]
    exact ⟨.nil, rfl, rfl⟩
  · rw [if_neg none] at search
    rw [if_neg none]
    cases parsed : Document.parse (encodedOf segments) with
    | error error => simp [parsed] at search
    | ok root =>
      simp only [parsed, Except.ok.injEq] at search ⊢
      obtain ⟨lexemes, denotes, text_eq⟩ := Document.denotes_of_parse parsed
      rw [encodedOf_eq_filledOf] at text_eq
      refine ⟨encodes.collect_ascending denotes text_eq, ?_, ?_⟩
      · rw [map_collect_eq, search]
      · rw [occurrencesOf_eq_filterMap] at search ⊢
        exact encodes.rawTokens_eq_filter contexts denotes text_eq search.symm

/-- Marking leaves every occurrence in its place. -/
theorem occurrenceAt?_markRaw (raw : List Occurrence) (segments : List Segment) (index : Nat) :
    occurrenceAt? (markRaw raw segments) index = (occurrenceAt? segments index).map (Occurrence.marked raw) := by
  rw [occurrenceAt?, occurrenceAt?, markRaw, List.getElem?_map]
  cases segments[index]? with
  | none => rfl
  | some segment => cases segment <;> rfl

/-- The places of all raw occurrences of a template are those of its segments that are raw occurrences. -/
theorem mem_places_iff {template : Template} (numbered : Numbered config base (marksOf template.segments))
    {places : List Nat} (places_eq : places.map (occurrenceAt? template.segments) = template.rawOccurrences.map some)
    {index : Nat} : index ∈ places ↔
      ∃ found, found.context = .raw ∧ template.segments[index]? = some (.occurrence found) := by
  have leads {found : Option Occurrence} :
      (∃ place ∈ places, occurrenceAt? template.segments place = found) ↔
        ∃ other ∈ template.rawOccurrences, some other = found := by
    rw [← List.mem_map, places_eq, List.mem_map]
  constructor
  · intro member
    obtain ⟨found, isRaw, here⟩ := leads.mp ⟨index, member, rfl⟩
    exact ⟨found, by simpa using (List.mem_filter.mp isRaw).2, occurrenceAt?_eq_some_iff.mp here.symm⟩
  · rintro ⟨found, isRaw, here⟩
    have known : found ∈ template.occurrences := List.mem_filterMap.mpr ⟨_, List.mem_of_getElem? here, rfl⟩
    obtain ⟨place, member, there⟩ := leads.mpr ⟨found, List.mem_filter.mpr ⟨known, by simpa using isRaw⟩, rfl⟩
    rwa [← numbered.place_unique there (occurrenceAt?_eq_some_iff.mpr here)]

/-- Between two literals is an occurrence, so there are not many more segments than two for each of them. -/
theorem Divided.length_le {front text : Text} (divided : Divided config front text segments) :
    segments.length ≤ 2 * (occurrencesOf segments).length + 1 ∧
      ((∀ next later, segments ≠ .literal next :: later) → segments.length ≤ 2 * (occurrencesOf segments).length) := by
  induction divided with
  | nil => exact ⟨Nat.zero_le _, fun _ => Nat.zero_le _⟩
  | @occurrence front text afterEnd found rest here start later ih =>
    have occurrences_eq : occurrencesOf (.occurrence found :: rest) = found :: occurrencesOf rest := rfl
    rw [occurrences_eq, List.length_cons, List.length_cons]
    exact ⟨by omega, fun _ => by omega⟩
  | @literal front literal text rest some isLiteral alone later ih =>
    have occurrences_eq : occurrencesOf (.literal literal :: rest) = occurrencesOf rest := rfl
    have few := ih.2 alone
    rw [occurrences_eq, List.length_cons]
    exact ⟨by omega, fun other => absurd rfl (other literal rest)⟩

/-- The walk of a source that compiles collects the places of the raw occurrences in their order. -/
theorem rawIndices_of_compile {compiled : Compiled} (fits : Supply.fits source base = true)
    (bounded : base < Code.baseBound) (compiles : Template.compile config source base = .ok compiled) :
    ∃ numbered, Segment.ofSource config source base = .ok numbered ∧
      compiled.template = ⟨source, config, markRaw compiled.rawTokens numbered⟩ ∧
      (rawIndices source numbered).Pairwise (· < ·) ∧
      (rawIndices source numbered).map (occurrenceAt? compiled.template.segments) =
        compiled.template.rawOccurrences.map some ∧
      compiled.template.rawOccurrences = compiled.rawTokens.map (Occurrence.marked compiled.rawTokens) := by
  obtain ⟨numbered, raw, divided, search, rfl⟩ := compile_eq_ok compiles
  obtain ⟨encodes, contexts⟩ := encodes_of_ofSource fits bounded divided
  obtain ⟨ascending, places, raw_eq⟩ := findRaw_eq_ok encodes contexts search
  have rawOccurrences_eq : Template.rawOccurrences ⟨source, config, markRaw raw numbered⟩ =
      raw.map (Occurrence.marked raw) := by
    rw [Template.rawOccurrences, Template.occurrences, occurrencesOf_markRaw, List.filter_map]
    exact congrArg (List.map (Occurrence.marked raw)) raw_eq.symm
  refine ⟨numbered, divided, rfl, ascending, ?_, rawOccurrences_eq⟩
  calc (rawIndices source numbered).map (occurrenceAt? (markRaw raw numbered))
    _ = ((rawIndices source numbered).map (occurrenceAt? numbered)).map (Option.map (Occurrence.marked raw)) := by
      rw [List.map_map]
      exact List.map_congr_left fun index _ => occurrenceAt?_markRaw raw numbered index
    _ = (raw.map some).map (Option.map (Occurrence.marked raw)) := by rw [places]
    _ = (raw.map (Occurrence.marked raw)).map some := by
      rw [List.map_map, List.map_map]
      rfl
    _ = _ := by rw [rawOccurrences_eq]

end Stencil
