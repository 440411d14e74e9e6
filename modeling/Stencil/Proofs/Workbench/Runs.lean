import Stencil.Proofs.Template.Acceptance
import Stencil.Workbench.Basic

/-! Runs of commands at a workbench. A command that fails may draw bases from the
supply and set variables, but it changes neither the configuration nor a value
nor a slot, and the same is true of a run of commands that all fail. A command on
an empty slot changes nothing at all, and no command changes a slot but its own.
Whatever the commands are, the slots never hold anything but templates that were
compiled. -/
namespace Stencil

variable {bench later last : Workbench} {command : Command} {commands : List Command} {supply : Supply}
  {text name source : Text}

/-! ### What is left of a supply -/

namespace Supply

/-- Some numbers were drawn from a supply, and these are left. -/
def IsBehind (later supply : Supply) : Prop := ∃ count, ∀ index, later.nth index = supply.nth (count + index)

theorem IsBehind.refl (supply : Supply) : IsBehind supply supply := ⟨0, fun index => by rw [Nat.zero_add]⟩

theorem IsBehind.trans {later last : Supply} (first : later.IsBehind supply) (second : last.IsBehind later) :
    last.IsBehind supply := by
  obtain ⟨count, taken⟩ := first
  obtain ⟨more, takenLater⟩ := second
  exact ⟨count + more, fun index => by rw [takenLater, taken, Nat.add_assoc]⟩

theorem isBehind_queued (base : Nat) (queued : List Nat) (fresh : Nat) :
    IsBehind ⟨queued, fresh⟩ ⟨base :: queued, fresh⟩ :=
  ⟨1, fun index => by simp [nth, Nat.add_comm 1]⟩

theorem isBehind_fresh (fresh : Nat) : IsBehind ⟨[], fresh + 1⟩ ⟨[], fresh⟩ :=
  ⟨1, fun index => by simp [nth, Nat.add_assoc]⟩

/-- A draw takes numbers from the front of a supply only. -/
theorem isBehind_draw (text : Text) (supply : Supply) : (draw text supply).supply.IsBehind supply := by
  fun_induction draw text supply with
  | case1 base queued fresh fit => exact isBehind_queued base queued fresh
  | case2 base queued fresh unfit later ih => exact (isBehind_queued base queued fresh).trans ih
  | case3 fresh unfit later ih => exact (isBehind_fresh fresh).trans ih
  | case4 fresh fit => exact isBehind_fresh fresh

end Supply

/-- Whether or not a source compiles, a base is drawn for it. -/
theorem Template.supply_make (config : Config) (source : Text) (supply : Supply) :
    (make config source supply).supply = (Supply.draw source supply).supply := by
  simp only [make]
  cases compile config source (Supply.draw source supply).base <;> rfl

theorem Template.isBehind_make (config : Config) (source : Text) (supply : Supply) :
    (make config source supply).supply.IsBehind supply := by
  rw [supply_make]
  exact Supply.isBehind_draw source supply

/-- A stored form that cannot be read takes no base, and any other takes what its source takes. -/
theorem Stored.isBehind_makeTemplate (text : Text) (supply : Supply) :
    (makeTemplate text supply).2.IsBehind supply := by
  unfold makeTemplate
  split
  · exact .refl supply
  · rename_i draft next _
    have behind := Template.isBehind_make draft.config draft.source supply
    dsimp only
    split
    · exact behind
    · exact behind

namespace Workbench

/-! ### Commands that fail -/

/-- Everything lies on a workbench as before, except that bases may have been drawn
from its supply and variables set in its environment. -/
structure Kept (bench later : Workbench) : Prop where
  config : later.config = bench.config
  values : later.values = bench.values
  slots : later.slots = bench.slots
  drawn : later.supply.IsBehind bench.supply
  set : bench.environment <+: later.environment

theorem Kept.refl (bench : Workbench) : bench.Kept bench := ⟨rfl, rfl, rfl, .refl _, List.prefix_refl _⟩

theorem Kept.trans (first : bench.Kept later) (second : later.Kept last) : bench.Kept last where
  config := second.config.trans first.config
  values := second.values.trans first.values
  slots := second.slots.trans first.slots
  drawn := first.drawn.trans second.drawn
  set := first.set.trans second.set

theorem Kept.of_drawn (drawn : supply.IsBehind bench.supply) : bench.Kept { bench with supply } :=
  ⟨rfl, rfl, rfl, drawn, List.prefix_refl _⟩

theorem Kept.of_set (settings : Environment) :
    bench.Kept { bench with environment := bench.environment ++ settings } :=
  ⟨rfl, rfl, rfl, .refl _, List.prefix_append _ _⟩

/-- A slot is empty, or its template is used. -/
theorem withSlot_cases (bench : Workbench) (name : Text) (use : Slot → Reply × Workbench) :
    bench.slots.lookup name = none ∧ bench.withSlot name use = (.noSlot name, bench) ∨
      ∃ slot, bench.slots.lookup name = some slot ∧ bench.withSlot name use = use slot := by
  unfold withSlot
  cases bench.slots.lookup name with
  | none => exact .inl ⟨rfl, rfl⟩
  | some slot => exact .inr ⟨slot, rfl, rfl⟩

/-- A command on a slot fails because the slot is empty, or as what it does with the template. -/
theorem kept_of_withSlot {use : Slot → Reply × Workbench}
    (inner : ∀ slot, (use slot).1.isFailure = true → bench.Kept (use slot).2)
    (failed : (bench.withSlot name use).1.isFailure = true) : bench.Kept (bench.withSlot name use).2 := by
  rcases bench.withSlot_cases name use with ⟨_, used⟩ | ⟨slot, _, used⟩
  · rw [used]
    exact .refl bench
  · rw [used] at failed ⊢
    exact inner slot failed

theorem kept_of_compile {ownership : Ownership} (failed : (bench.compile name source ownership).1.isFailure = true) :
    bench.Kept (bench.compile name source ownership).2 := by
  cases made : (Template.make bench.config source bench.supply).result with
  | ok template => simp [compile, made, place, Reply.isFailure] at failed
  | error error =>
    simp only [compile, made]
    exact .of_drawn (Template.isBehind_make bench.config source bench.supply)

theorem kept_of_restore (failed : (bench.restore name text).1.isFailure = true) :
    bench.Kept (bench.restore name text).2 := by
  cases made : (Stored.makeTemplate text bench.supply).1 with
  | ok template => simp [restore, made, place, Reply.isFailure] at failed
  | error fault =>
    simp only [restore, made]
    exact .of_drawn (Stored.isBehind_makeTemplate text bench.supply)

theorem kept_of_restoreConfig (failed : (bench.restoreConfig text).1.isFailure = true) :
    bench.Kept (bench.restoreConfig text).2 := by
  cases read : Stored.configOfText text with
  | ok config => simp [restoreConfig, read, configure, Reply.isFailure] at failed
  | error fault =>
    simp only [restoreConfig, read]
    exact .refl bench

/-- Trying out the configuration draws a base, whether it is usable or not. -/
theorem kept_checkConfig (bench : Workbench) : bench.Kept bench.checkConfig.2 := by
  have drawn := Kept.of_drawn (Template.isBehind_make bench.config [] bench.supply)
  unfold checkConfig
  dsimp only
  split
  · exact drawn
  · exact drawn

/-- Expanding sets the variables of the values, whether there is an expansion or not. -/
theorem kept_expand (bench : Workbench) (template : Template) (values : Option Values) :
    bench.Kept (bench.expand template values).2 := by
  unfold expand
  dsimp only
  split
  · exact .of_set _
  · exact .of_set _

/-- **A command that fails changes nothing but the supply and the environment.** -/
theorem kept_of_failed (failed : (bench.run command).1.isFailure = true) : bench.Kept (bench.run command).2 := by
  cases command with
  | restoreConfig text => exact kept_of_restoreConfig failed
  | checkConfig => exact bench.kept_checkConfig
  | compile name source ownership => exact kept_of_compile failed
  | restore name text => exact kept_of_restore failed
  | expand name values => exact kept_of_withSlot (fun slot _ => bench.kept_expand slot.template values) failed
  | occurrences name | encoded name | inspect name | store name | copy name target | convert name
  | takeSource name => exact kept_of_withSlot (fun _ inner => by cases inner) failed
  | _ => cases failed

/-- **A run of commands that all fail changes nothing but the supply and the environment.** -/
theorem kept_of_all_failed (failed : ∀ reply ∈ (bench.runAll commands).1, reply.isFailure = true) :
    bench.Kept (bench.runAll commands).2 := by
  induction commands generalizing bench with
  | nil => exact .refl bench
  | cons command commands ih =>
    rw [runAll_cons] at failed ⊢
    obtain ⟨first, others⟩ := List.forall_mem_cons.mp failed
    exact (kept_of_failed first).trans (ih others)

/-! ### Empty slots -/

/-- **A command on an empty slot changes nothing at all.** -/
theorem run_of_empty (uses : command.slot? = some name) (empty : bench.slots.lookup name = none) :
    bench.run command = (.noSlot name, bench) := by
  have unused (use : Slot → Reply × Workbench) : bench.withSlot name use = (.noSlot name, bench) := by
    rw [withSlot, empty]
  cases command with
  | expand slot | occurrences slot | encoded slot | inspect slot | store slot | copy slot target | convert slot
  | takeSource slot =>
    obtain rfl := Option.some.inj uses
    exact unused _
  | _ => cases uses

/-- That a slot is missing is answered for empty slots only. -/
theorem run_eq_noSlot_iff :
    (bench.run command).1 = .noSlot name ↔ command.slot? = some name ∧ bench.slots.lookup name = none := by
  constructor
  · intro missing
    have inSlot {slot : Text} {use : Slot → Reply × Workbench} (other : ∀ found, (use found).1 ≠ .noSlot name)
        (missing : (bench.withSlot slot use).1 = .noSlot name) :
        some slot = some name ∧ bench.slots.lookup name = none := by
      rcases bench.withSlot_cases slot use with ⟨empty, used⟩ | ⟨found, _, used⟩
      · rw [used] at missing
        obtain rfl := Reply.noSlot.inj missing
        exact ⟨rfl, empty⟩
      · rw [used] at missing
        exact absurd missing (other found)
    cases command with
    | expand slot values =>
      refine inSlot (fun found => ?_) missing
      unfold expand
      dsimp only
      split <;> nofun
    | occurrences slot | encoded slot | inspect slot | store slot | copy slot target | convert slot
    | takeSource slot => exact inSlot (fun _ other => by cases other) missing
    | restoreConfig text | checkConfig | compile slot source ownership | restore slot text =>
      simp only [run, restoreConfig, checkConfig, compile, restore] at missing
      split at missing <;> cases missing
    | _ => cases missing
  · rintro ⟨uses, empty⟩
    rw [run_of_empty uses empty]

/-- A run in which no slot is found changes nothing at all. -/
theorem runAll_of_missing (missing : ∀ reply ∈ (bench.runAll commands).1, ∃ name, reply = .noSlot name) :
    (bench.runAll commands).2 = bench := by
  induction commands with
  | nil => rfl
  | cons command commands ih =>
    rw [runAll_cons] at missing ⊢
    obtain ⟨⟨name, first⟩, others⟩ := List.forall_mem_cons.mp missing
    obtain ⟨uses, empty⟩ := run_eq_noSlot_iff.mp first
    have same : (bench.run command).2 = bench := by rw [run_of_empty uses empty]
    rw [same] at others ⊢
    exact ih others

/-! ### Other slots -/

variable {probe : Text}

theorem lookup_of_place (slot : Slot) (other : some name ≠ some probe) :
    (bench.place name slot).2.slots.lookup probe = bench.slots.lookup probe := by
  have different : probe ≠ name := fun same => other (congrArg some same.symm)
  rw [place, Table.lookup_insert, if_neg different]

/-- What is done with the template of a slot may leave another slot as it is. -/
theorem lookup_of_withSlot {use : Slot → Reply × Workbench}
    (inner : ∀ slot, (use slot).2.slots.lookup probe = bench.slots.lookup probe) :
    (bench.withSlot name use).2.slots.lookup probe = bench.slots.lookup probe := by
  rcases bench.withSlot_cases name use with ⟨_, used⟩ | ⟨slot, _, used⟩
  · rw [used]
  · rw [used]
    exact inner slot

/-- **A command changes no slot but its own.** -/
theorem lookup_of_run (other : command.target? ≠ some probe) :
    (bench.run command).2.slots.lookup probe = bench.slots.lookup probe := by
  cases command with
  | restoreConfig text =>
    simp only [run, restoreConfig]
    split <;> rfl
  | checkConfig => exact congrArg (List.lookup probe) bench.kept_checkConfig.slots
  | compile name source ownership | restore name text =>
    simp only [run, compile, restore]
    split
    · exact lookup_of_place _ other
    · rfl
  | expand name values =>
    exact lookup_of_withSlot fun slot => congrArg (List.lookup probe) (bench.kept_expand slot.template values).slots
  | copy name target => exact lookup_of_withSlot fun slot => lookup_of_place slot other
  | convert name => exact lookup_of_withSlot fun slot => lookup_of_place _ other
  | takeSource name =>
    have different : probe ≠ name := fun same => other (congrArg some same.symm)
    refine lookup_of_withSlot fun slot => ?_
    rw [Table.lookup_erase, if_neg different]
  | occurrences name | encoded name | inspect name | store name => exact lookup_of_withSlot fun _ => rfl
  | _ => rfl

/-- **A run changes no slots but those of its commands.** -/
theorem lookup_of_runAll (others : ∀ command ∈ commands, command.target? ≠ some probe) :
    (bench.runAll commands).2.slots.lookup probe = bench.slots.lookup probe := by
  induction commands generalizing bench with
  | nil => rfl
  | cons command commands ih =>
    obtain ⟨other, others⟩ := List.forall_mem_cons.mp others
    rw [runAll_cons]
    exact (ih others).trans (lookup_of_run other)

end Workbench

/-! ### What slots hold -/

/-- A template was compiled: from its source, with its configuration, and with a base that fits. -/
def Template.IsCompiled (template : Template) : Prop :=
  ∃ base compiled, Supply.fits template.source base = true ∧
    compile template.config template.source base = .ok compiled ∧ compiled.template = template

/-- Templates are made by compiling. -/
theorem Template.isCompiled_of_make {config : Config} {template : Template}
    (made : (make config source supply).result = .ok template) : template.IsCompiled := by
  obtain ⟨compiled, compiles, rfl⟩ := exists_compiled_of_make made
  obtain ⟨source_eq, config_eq⟩ := source_of_compile compiles
  refine ⟨(Supply.draw source supply).base, compiled, ?_, ?_, rfl⟩
  · rw [source_eq]
    exact Supply.fits_draw source supply
  · rw [source_eq, config_eq]
    exact compiles

/-- So are those that are made from a stored form. -/
theorem Stored.isCompiled_of_makeTemplate {template : Template}
    (made : (makeTemplate text supply).1 = .ok template) : template.IsCompiled := by
  unfold makeTemplate at made
  split at made
  · cases made
  · rename_i draft next _
    dsimp only at made
    split at made
    · cases made
    · rename_i compiled result
      cases ends : Json.expectEnd next with
      | error fault =>
        rw [ends] at made
        cases made
      | ok =>
        rw [ends] at made
        obtain rfl : compiled = template := Except.ok.inj made
        exact Template.isCompiled_of_make result

namespace Workbench

/-- Every slot holds a template that was compiled. -/
def AllCompiled (bench : Workbench) : Prop := ∀ entry ∈ bench.slots, entry.2.template.IsCompiled

theorem allCompiled_initial (supply : Supply) : (initial supply).AllCompiled := nofun

theorem AllCompiled.place {slot : Slot} (all : bench.AllCompiled) (isCompiled : slot.template.IsCompiled) :
    (bench.place name slot).2.AllCompiled := by
  intro entry member
  rcases Table.mem_of_mem_insert member with rfl | before
  · exact isCompiled
  · exact all entry before

theorem AllCompiled.erase (all : bench.AllCompiled) (name : Text) :
    AllCompiled { bench with slots := Table.erase name bench.slots } := by
  intro entry member
  exact all entry (List.mem_filter.mp member).1

/-- What is done with the template of a slot is done with one that was compiled. -/
theorem AllCompiled.withSlot {use : Slot → Reply × Workbench} (all : bench.AllCompiled) (name : Text)
    (inner : ∀ slot, slot.template.IsCompiled → (use slot).2.AllCompiled) :
    (bench.withSlot name use).2.AllCompiled := by
  rcases bench.withSlot_cases name use with ⟨_, used⟩ | ⟨slot, found, used⟩
  · rw [used]
    exact all
  · obtain ⟨before, after, division, _⟩ := List.lookup_eq_some_iff.mp found
    have member : (name, slot) ∈ bench.slots := by simp [division]
    rw [used]
    exact inner slot (all _ member)

theorem AllCompiled.compile (all : bench.AllCompiled) (name source : Text) (ownership : Ownership) :
    (bench.compile name source ownership).2.AllCompiled := by
  unfold Workbench.compile
  dsimp only
  split
  · rename_i template made
    exact all.place (Template.isCompiled_of_make made)
  · exact all

theorem AllCompiled.restore (all : bench.AllCompiled) (name text : Text) :
    (bench.restore name text).2.AllCompiled := by
  unfold Workbench.restore
  dsimp only
  split
  · rename_i template made
    exact all.place (Stored.isCompiled_of_makeTemplate made)
  · exact all

/-- **No command puts anything into a slot but a template that was compiled.** -/
theorem AllCompiled.run (all : bench.AllCompiled) (command : Command) : (bench.run command).2.AllCompiled := by
  cases command with
  | compile name source ownership => exact all.compile name source ownership
  | restore name text => exact all.restore name text
  | restoreConfig text =>
    simp only [Workbench.run, restoreConfig]
    split <;> exact all
  | checkConfig => exact fun entry member => all entry (bench.kept_checkConfig.slots ▸ member)
  | expand name values =>
    exact all.withSlot name fun slot _ entry member =>
      all entry ((bench.kept_expand slot.template values).slots ▸ member)
  | copy name target => exact all.withSlot name fun slot isCompiled => all.place isCompiled
  | convert name => exact all.withSlot name fun slot isCompiled => all.place isCompiled
  | takeSource name => exact all.withSlot name fun _ _ => all.erase name
  | occurrences name | encoded name | inspect name | store name => exact all.withSlot name fun _ _ => all
  | _ => exact all

/-- **Whatever is done, the slots hold compiled templates.** -/
theorem allCompiled_runAll (supply : Supply) (commands : List Command) :
    ((initial supply).runAll commands).2.AllCompiled := by
  suffices onward : ∀ bench : Workbench, bench.AllCompiled → (bench.runAll commands).2.AllCompiled from
    onward _ (allCompiled_initial supply)
  induction commands with
  | nil => exact fun _ all => all
  | cons command commands ih => exact fun bench all => ih _ (all.run command)

end Workbench
end Stencil
