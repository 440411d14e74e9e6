import Stencil.Proofs.Config.Names
import Stencil.Proofs.Stored.Reading
import Stencil.Proofs.Template.Acceptance

/-! Nothing is lost by storing. A configuration is read back as it was. A
template is stored without its codes and contexts and is compiled again, so it
comes back with codes of another base and is the same otherwise. What was never
stored but is written in the same form is accepted exactly when it compiles, and
refused with the error of compiling. -/
namespace Stencil.Stored

variable {config : Config} {source text : Text} {base : Nat} {compiled : Compiled}

/-! ### What is read of a form -/

/-- The entries of a stored configuration. -/
def configEntries (names : List Text) (startTag? endTag? : Option Text) : List Entry :=
  .macros names :: ((startTag?.map .startTag).toList ++ (endTag?.map .endTag).toList)

/-- The configuration that is stored with names and tags; a tag that is left out has its default. -/
def storedConfig (names : List Text) (startTag? endTag? : Option Text) : Config where
  names := Names.ofList names
  startTag := startTag?.getD ['$', '{']
  endTag := endTag?.getD ['}']

/-- What is known after the entries of a configuration were read. -/
theorem foldl_configEntries (draft : Draft) (names : List Text) (startTag? endTag? : Option Text)
    (config_eq : draft.config = {}) :
    ((configEntries names startTag? endTag?).foldl Entry.fill draft).config = storedConfig names startTag? endTag? ∧
    ((configEntries names startTag? endTag?).foldl Entry.fill draft).source = draft.source := by
  cases startTag? <;> cases endTag? <;> simp [configEntries, Entry.fill, storedConfig, config_eq]

/-- A configuration is read from its entries. -/
theorem configOfText_entries (names : List Text) (startTag? endTag? : Option Text) :
    configOfText (formText (configEntries names startTag? endTag?)) = .ok (storedConfig names startTag? endTag?) := by
  have new : AreNew .config {} (configEntries names startTag? endTag?) := by
    cases startTag? <;> cases endTag? <;> simp [AreNew, configEntries, Entry.field, Form.fields]
  have complete : ((configEntries names startTag? endTag?).foldl Entry.fill {}).missing? .config = none := by
    cases startTag? <;> cases endTag? <;> rfl
  obtain ⟨last, reads⟩ := readForm_formText new complete
  rw [configOfText, reads, ← (foldl_configEntries {} names startTag? endTag? rfl).1]
  rfl

/-- A template is compiled from its source and the configuration of its entries. -/
theorem makeTemplate_entries (source : Text) (names : List Text) (startTag? endTag? : Option Text) (supply : Supply) :
    (makeTemplate (formText (.source source :: configEntries names startTag? endTag?)) supply).1 =
      ((Template.make (storedConfig names startTag? endTag?) source supply).result).mapError
        fun error => ⟨.refused error.message, none⟩ := by
  have new : AreNew .template {} (.source source :: configEntries names startTag? endTag?) := by
    cases startTag? <;> cases endTag? <;> simp [AreNew, configEntries, Entry.field, Form.fields]
  have complete : ((Entry.source source :: configEntries names startTag? endTag?).foldl Entry.fill {}).missing?
      .template = none := by
    cases startTag? <;> cases endTag? <;> rfl
  obtain ⟨last, reads⟩ := readForm_formText new complete
  rw [List.foldl_cons] at reads
  obtain ⟨config_eq, source_eq⟩ :=
    foldl_configEntries (Entry.fill {} (.source source)) names startTag? endTag? rfl
  generalize (configEntries names startTag? endTag?).foldl Entry.fill _ = draft at reads config_eq source_eq
  have given : draft.source = source := source_eq
  simp only [makeTemplate, reads, config_eq, given]
  cases (Template.make (storedConfig names startTag? endTag?) source supply).result <;> rfl

/-! ### Round trips -/

/-- The configuration that is stored with the names and the tags of a configuration is the configuration. -/
theorem storedConfig_self (config : Config) :
    storedConfig config.names.toList (some config.startTag) (some config.endTag) = config := by
  simp only [storedConfig, Names.ofList_toList, Option.getD_some]

/-- What is stored of a configuration are its names in their order, and its tags. -/
theorem configText_eq (config : Config) :
    configText config = formText (configEntries config.names.toList (some config.startTag) (some config.endTag)) :=
  rfl

theorem templateText_eq (source : Text) (config : Config) :
    templateText source config =
      formText (.source source :: configEntries config.names.toList (some config.startTag) (some config.endTag)) :=
  rfl

/-- The template that comes back from its stored form is the template with codes of the base that is drawn. -/
theorem makeTemplate_textOfTemplate {supply : Supply} (fits : Supply.fits source base = true)
    (bounded : base < Code.baseBound) (bounded' : (Supply.draw source supply).base < Code.baseBound)
    (compiles : Template.compile config source base = .ok compiled) :
    (makeTemplate (textOfTemplate compiled.template) supply).1 =
      .ok (compiled.template.rebased (Supply.draw source supply).base) := by
  have again : Template.compile config source (Supply.draw source supply).base =
      .ok (compiled.rebased (Supply.draw source supply).base) := by
    rw [compile_rebased fits bounded (Supply.fits_draw source supply) bounded', compiles]
    rfl
  obtain ⟨source_eq, config_eq⟩ := source_of_compile compiles
  rw [textOfTemplate, source_eq, config_eq, templateText_eq, makeTemplate_entries, storedConfig_self, result_make,
    again]
  rfl

/-- What a template is made of decides whether it can be made, and the supply decides the base of its codes. -/
theorem result_make_rebased {supply supply' : Supply} (bounded : (Supply.draw source supply).base < Code.baseBound)
    (bounded' : (Supply.draw source supply').base < Code.baseBound) :
    (Template.make config source supply).result =
      (Template.make config source supply').result.map (Template.rebased (Supply.draw source supply).base) := by
  rw [result_make, result_make,
    compile_rebased (Supply.fits_draw source supply') bounded' (Supply.fits_draw source supply) bounded]
  cases Template.compile config source (Supply.draw source supply').base with
  | error error => rfl
  | ok compiled => rfl

/-- **Storing loses nothing.** A stored configuration is read back as the same
configuration, also one with empty tags. A stored template is made again, whatever
base is drawn for it, and has the same source, the same configuration and the same
occurrences but for their codes, so the same values give the same text or the same
error. And whatever source, names and tags are written in the form of a template, a
template is made of them if and only if the source compiles with the configuration
of those names and tags; otherwise the fault has the words of the error of compiling. -/
theorem stored_losslessly :
    (∀ config, configOfText (configText config) = .ok config) ∧
    (∀ config source base compiled supply, Supply.fits source base = true → base < Code.baseBound →
      Template.compile config source base = .ok compiled →
      (Supply.draw source supply).base < Code.baseBound →
      ∃ restored, (makeTemplate (textOfTemplate compiled.template) supply).1 = .ok restored ∧
        restored.source = compiled.template.source ∧ restored.config = compiled.template.config ∧
        restored.occurrences.map (fun found => (found.name, found.position, found.context)) =
          compiled.template.occurrences.map (fun found => (found.name, found.position, found.context)) ∧
        ∀ values, restored.expandToText values = compiled.template.expandToText values) ∧
    ∀ source names startTag? endTag? supply supply',
      (Supply.draw source supply).base < Code.baseBound → (Supply.draw source supply').base < Code.baseBound →
      let text := formText (.source source :: configEntries names startTag? endTag?)
      let made := (Template.make (storedConfig names startTag? endTag?) source supply').result
      ((∃ template, (makeTemplate text supply).1 = .ok template) ↔ ∃ template, made = .ok template) ∧
        ∀ error, made = .error error →
          ∃ fault, (makeTemplate text supply).1 = .error fault ∧ fault.message text = error.message := by
  refine ⟨fun config => ?_, fun config source base compiled supply fits bounded compiles bounded' => ?_,
    fun source names startTag? endTag? supply supply' bounded bounded' => ⟨?_, fun error refuses => ?_⟩⟩
  · rw [configText_eq, configOfText_entries, storedConfig_self]
  · refine ⟨_, makeTemplate_textOfTemplate fits bounded bounded' compiles, rfl, rfl, ?_, fun values => ?_⟩
    · rw [Template.occurrences, Template.rebased, occurrencesOf_rebased, List.map_map]
      rfl
    · rw [Template.expandToText_eq, Template.expandToText_eq]
      exact expandAll_rebased values _ compiled.template.segments
  · rw [makeTemplate_entries, result_make_rebased bounded bounded']
    cases (Template.make (storedConfig names startTag? endTag?) source supply').result with
    | error error => simp [Except.map, Except.mapError]
    | ok template => simp [Except.map, Except.mapError]
  · rw [makeTemplate_entries, result_make_rebased bounded bounded', refuses]
    exact ⟨_, rfl, rfl⟩

/-- The sample comes back from its stored form with another base. -/
theorem sample_restored : ∃ restored,
    (makeTemplate (textOfTemplate ⟨sampleSource, sampleConfig, markRaw sampleRaw sampleSegments⟩) ⟨[12], 100⟩).1 =
      .ok restored ∧ restored.source = sampleSource ∧ restored.config = sampleConfig := by
  have drawn : Supply.draw sampleSource ⟨[12], 100⟩ = ⟨[], 12, ⟨[], 100⟩⟩ := by
    rw [Supply.draw, if_pos (by decide)]
  have bounded : (Supply.draw sampleSource ⟨[12], 100⟩).base < Code.baseBound := by
    rw [drawn]
    decide
  obtain ⟨restored, made, source_eq, config_eq, _⟩ :=
    stored_losslessly.2.1 sampleConfig sampleSource 7 _ ⟨[12], 100⟩ (by decide) (by decide) compile_sample bounded
  exact ⟨restored, made, source_eq, config_eq⟩

end Stencil.Stored
