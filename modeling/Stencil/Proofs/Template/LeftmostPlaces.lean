import Mathlib.Data.List.Nodup
import Stencil.Proofs.Template.Replacement

/-! The places at which occurrences are replaced. The source and the configuration
tell which places these are: from left to right, every place at which a start tag,
a known name and an end tag stand and which is not inside of an earlier one, with
the longest of the names there. Only one list of places is like that. So the codes
of the encoded document, and the values of an expansion, stand at the places of this
list and nowhere else. -/
namespace Stencil

variable {config : Config} {source text : Text} {base start : Nat} {compiled : Compiled}
  {places others : List (Text × Nat)}

/-! ### Leftmost places -/

/-- Where an occurrence ends, given its name and its position. -/
def Config.stopOf (config : Config) (place : Text × Nat) : Nat :=
  place.2 + Text.size (config.startTag ++ place.1 ++ config.endTag)

/-- The leftmost places of a source from a byte offset on: an occurrence stands at
each of them, with no longer name than that, none begins before an earlier one ends,
and wherever an occurrence stands, it is at one of the places or inside of one. -/
structure Config.Leftmost (config : Config) (source : Text) (start : Nat) (places : List (Text × Nat)) : Prop where
  stand : ∀ place ∈ places, config.OccursAt source place.2 place.1
  longest : ∀ place ∈ places, ∀ name, config.OccursAt source place.2 name →
    name = place.1 ∨ Text.size name < Text.size place.1
  behind : ∀ place ∈ places, start ≤ place.2
  apart : places.Pairwise fun earlier later => config.stopOf earlier ≤ later.2
  covering : ∀ position name, start ≤ position → config.OccursAt source position name →
    ∃ place ∈ places, place.2 ≤ position ∧ position < config.stopOf place

namespace Config.Leftmost

variable {place : Text × Nat}

/-- An occurrence takes up some room. -/
theorem lt_stopOf (leftmost : config.Leftmost source start places) (member : place ∈ places) :
    place.2 < config.stopOf place := by
  have positive := Names.size_pos (leftmost.stand place member).1
  simp only [stopOf, Text.size_append]
  omega

/-- Without the first place, they are the leftmost places from its end on. -/
theorem tail (leftmost : config.Leftmost source start (place :: places)) :
    config.Leftmost source (config.stopOf place) places where
  stand other member := leftmost.stand other (List.mem_cons_of_mem place member)
  longest other member := leftmost.longest other (List.mem_cons_of_mem place member)
  behind := (List.pairwise_cons.mp leftmost.apart).1
  apart := (List.pairwise_cons.mp leftmost.apart).2
  covering position name beyond stands := by
    have begun := leftmost.behind place List.mem_cons_self
    have positive := leftmost.lt_stopOf List.mem_cons_self
    obtain ⟨other, member, first, last⟩ := leftmost.covering position name (by omega) stands
    rcases List.mem_cons.mp member with rfl | member
    · omega
    · exact ⟨other, member, first, last⟩

/-- No occurrence stands in front of the first place. -/
theorem le_of_occursAt (leftmost : config.Leftmost source start (place :: places)) {position : Nat} {name : Text}
    (behind : start ≤ position) (stands : config.OccursAt source position name) : place.2 ≤ position := by
  obtain ⟨other, member, first, _⟩ := leftmost.covering position name behind stands
  rcases List.mem_cons.mp member with rfl | later
  · exact first
  · have apart := leftmost.tail.behind other later
    have positive := leftmost.lt_stopOf List.mem_cons_self
    omega

/-- Two lists of leftmost places begin with the same place. -/
theorem head_eq {other : Text × Nat} (leftmost : config.Leftmost source start (place :: places))
    (leftmost' : config.Leftmost source start (other :: others)) : place = other := by
  have stands := leftmost.stand place List.mem_cons_self
  have stands' := leftmost'.stand other List.mem_cons_self
  have position_eq : place.2 = other.2 :=
    Nat.le_antisymm (leftmost.le_of_occursAt (leftmost'.behind other List.mem_cons_self) stands')
      (leftmost'.le_of_occursAt (leftmost.behind place List.mem_cons_self) stands)
  refine Prod.ext ?_ position_eq
  rcases leftmost.longest place List.mem_cons_self other.1 (position_eq ▸ stands') with same | shorter
  · exact same.symm
  · rcases leftmost'.longest other List.mem_cons_self place.1 (position_eq ▸ stands) with same | longer
    · exact same
    · omega

/-- **There is only one list of leftmost places.** -/
theorem unique (leftmost : config.Leftmost source start places) (leftmost' : config.Leftmost source start others) :
    places = others := by
  induction places generalizing start others with
  | nil =>
    cases others with
    | nil => rfl
    | cons other others =>
      obtain ⟨place, member, _⟩ := leftmost.covering other.2 other.1 (leftmost'.behind other List.mem_cons_self)
        (leftmost'.stand other List.mem_cons_self)
      cases member
  | cons place places ih =>
    cases others with
    | nil =>
      obtain ⟨other, member, _⟩ := leftmost'.covering place.2 place.1 (leftmost.behind place List.mem_cons_self)
        (leftmost.stand place List.mem_cons_self)
      cases member
    | cons other others =>
      obtain rfl := leftmost.head_eq leftmost'
      rw [ih leftmost.tail leftmost'.tail]

end Config.Leftmost

/-! ### The places of the occurrences -/

/-- The name and the position of an occurrence. -/
def Occurrence.place (found : Occurrence) : Text × Nat := (found.name, found.position)

/-- None of the occurrences of a source begins before an earlier one ends. -/
theorem Divided.apart {front : Text} {segments : List Segment} (divided : Divided config front text segments) :
    (occurrencesOf segments).Pairwise fun earlier later => earlier.stop config ≤ later.position := by
  induction divided with
  | nil => exact .nil
  | @occurrence front text afterEnd found rest here position later ih =>
    refine List.pairwise_cons.mpr ⟨fun other member => ?_, ih⟩
    have behind := later.le_position member
    rwa [Text.size_append, ← position] at behind
  | literal some isLiteral alone later ih => exact ih

/-- The occurrences of a source that is divided are at its leftmost places. -/
theorem Divided.leftmost {segments : List Segment} (divided : Divided config [] source segments) :
    config.Leftmost source 0 ((occurrencesOf segments).map Occurrence.place) where
  stand := List.forall_mem_map.mpr fun found member => (divided.longest member).1
  longest := List.forall_mem_map.mpr fun found member => (divided.longest member).2
  behind _ _ := Nat.zero_le _
  apart := List.pairwise_map.mpr divided.apart
  covering position name _ stands := by
    by_cases inside : ∃ earlier ∈ occurrencesOf segments, earlier.position < position ∧ position < earlier.stop config
    · obtain ⟨earlier, member, first, last⟩ := inside
      exact ⟨earlier.place, List.mem_map_of_mem member, Nat.le_of_lt first, last⟩
    · have outside : ∀ earlier ∈ occurrencesOf segments,
          ¬ (earlier.position < position ∧ position < earlier.stop config) :=
        fun earlier member within => inside ⟨earlier, member, within⟩
      obtain ⟨found, member, rfl⟩ := (divided.position_iff (Nat.zero_le position)).mpr ⟨⟨name, stands⟩, outside⟩
      exact ⟨found.place, List.mem_map_of_mem member, Nat.le_refl _,
        Occurrence.lt_stop (divided.longest member).1.1⟩

/-- **A template has its occurrences at the leftmost places of its source.** -/
theorem leftmost_of_compile (compiles : Template.compile config source base = .ok compiled) :
    config.Leftmost source 0 (compiled.template.occurrences.map Occurrence.place) := by
  obtain ⟨segments, raw, numbered, _, rfl⟩ := compile_eq_ok compiles
  have divided : Divided config [] source segments := divided_of_number .nil numbered
  have same : Occurrence.place ∘ Occurrence.marked raw = Occurrence.place := by
    funext found
    simp [Occurrence.place]
  rw [Template.occurrences, occurrencesOf_markRaw, List.map_map, same]
  exact divided.leftmost

/-! ### What stands at the places -/

/-- The exchange of an occurrence, given its name and its position, for some text. -/
def Config.exchangeAt (config : Config) (place : Text × Nat) (text : Text) : Exchange :=
  ⟨place.2, config.stopOf place, text⟩

/-- **The codes stand at the leftmost places of the source.** The encoded document is
the source with the leftmost places exchanged for the codes of the base that is drawn,
in their order. -/
theorem encoded_at_leftmost {supply : Supply} {template : Template} (leftmost : config.Leftmost source 0 places)
    (made : (Template.make config source supply).result = .ok template) :
    Text.exchange? 0 source (places.mapIdx fun index place =>
      config.exchangeAt place (Code.digits ⟨(Supply.draw source supply).base, index⟩)) = some template.encoded := by
  obtain ⟨compiled, compiles, rfl⟩ := exists_compiled_of_make made
  obtain rfl := leftmost.unique (leftmost_of_compile compiles)
  rw [← exchange?_of_compile compiles]
  congr 1
  refine List.ext_getElem (by simp) fun index inside inside' => ?_
  rw [List.length_map] at inside'
  have code_eq := code_of_compile compiles (List.getElem?_eq_getElem inside')
  simp only [List.getElem_mapIdx, List.getElem_map, ← code_eq]
  rfl

/-- The context of the occurrence at a position. -/
def Template.contextAt (template : Template) (position : Nat) : Context :=
  ((template.occurrences.find? fun found => found.position = position).map Occurrence.context).getD .string

/-- The rendering that a template asks for at one of its places. -/
def Template.renderingAt? (template : Template) (values : Renderings) (place : Text × Nat) : Option Text :=
  values.get? (template.contextAt place.2) place.1

/-- Different occurrences have different positions. -/
theorem contextAt_of_compile (compiles : Template.compile config source base = .ok compiled) {found : Occurrence}
    (member : found ∈ compiled.template.occurrences) :
    compiled.template.contextAt found.position = found.context := by
  have leftmost := leftmost_of_compile compiles
  have ascending : (compiled.template.occurrences.map Occurrence.position).Pairwise (· < ·) := by
    refine List.pairwise_map.mpr ((List.pairwise_map.mp leftmost.apart).imp_of_mem ?_)
    intro earlier later isEarlier _ apart
    exact Nat.lt_of_lt_of_le (leftmost.lt_stopOf (List.mem_map_of_mem isEarlier)) apart
  cases search : compiled.template.occurrences.find? fun other => other.position = found.position with
  | none =>
    have missed := List.find?_eq_none.mp search found member
    simp at missed
  | some other =>
    have same : other.position = found.position := by simpa using List.find?_some search
    have nodup : (compiled.template.occurrences.map Occurrence.position).Nodup := ascending.imp Nat.ne_of_lt
    obtain rfl := List.inj_on_of_nodup_map nodup (List.mem_of_find?_eq_some search) member same
    rw [Template.contextAt, search]
    rfl

theorem renderingAt?_of_compile (compiles : Template.compile config source base = .ok compiled) (values : Renderings)
    {found : Occurrence} (member : found ∈ compiled.template.occurrences) :
    compiled.template.renderingAt? values found.place = values.get? found.context found.name := by
  rw [← contextAt_of_compile compiles member]
  rfl

/-- **Values stand at the leftmost places of the source.** A compiled source expands
if and only if there is a rendering for each of its leftmost places, and the text is
the source with these places exchanged for the renderings. Otherwise the error is
about the first of the places without a rendering. -/
theorem expanded_at_leftmost (leftmost : config.Leftmost source 0 places)
    (compiles : Template.compile config source base = .ok compiled) (values : Renderings) :
    ((∃ text, compiled.template.expandToText values = .ok text) ↔
      ∀ place ∈ places, ∃ rendering, compiled.template.renderingAt? values place = some rendering) ∧
    (∀ text, compiled.template.expandToText values = .ok text →
      Text.exchange? 0 source (places.map fun place =>
        config.exchangeAt place ((compiled.template.renderingAt? values place).getD [])) = some text) ∧
    ∀ error, compiled.template.expandToText values = .error error →
      ∃ before place after, places = before ++ place :: after ∧
        (∀ earlier ∈ before, ∃ rendering, compiled.template.renderingAt? values earlier = some rendering) ∧
        compiled.template.renderingAt? values place = none ∧
        error = .noSuchMacro (place.2 + Text.size config.startTag) place.1 := by
  obtain rfl := leftmost.unique (leftmost_of_compile compiles)
  have asked {found : Occurrence} := @renderingAt?_of_compile config source base compiled compiles values found
  have expand_eq : compiled.template.expandToText values =
      Segment.expandAll config values compiled.template.segments := by
    rw [Template.expandToText_eq, expand_of_compile compiles]
  refine ⟨?_, ?_, ?_⟩
  · rw [List.forall_mem_map, expands_iff]
    exact forall₂_congr fun found member => by rw [asked member]
  · intro text expands
    rw [expand_eq] at expands
    rw [← filledOf_of_expandAll expands, ← exchanged_of_compile compiles, List.map_map]
    congr 1
    refine List.map_congr_left fun found member => ?_
    rw [Function.comp_apply, asked member]
    rfl
  · intro error failed
    rw [expand_eq] at failed
    obtain ⟨before, found, after, split, given, absent, error_eq⟩ := expandAll_first_missing failed
    have split : compiled.template.occurrences = before ++ found :: after := split
    refine ⟨before.map Occurrence.place, found.place, after.map Occurrence.place, by simp [split], ?_, ?_, error_eq⟩
    · refine List.forall_mem_map.mpr fun earlier member => ?_
      rw [asked (by simp [split, member])]
      exact given earlier member
    · rw [asked (by simp [split])]
      exact absent

end Stencil
