import Stencil.Workbench.Command

/-! A workbench: templates in named slots, a table of values, a configuration
for the templates to come, a supply of bases for them and an environment. A
command that fails changes nothing but the supply and the environment, because
bases that were drawn stay drawn and variables that were set stay set. But a
command on a slot that is empty changes nothing at all. -/

namespace Stencil

/-- What lies on the workbench. -/
structure Workbench where
  config : Config := {}
  values : List (Text × Text) := []
  slots : List (Text × Slot) := []
  supply : Supply
  environment : Environment := []

namespace Workbench

/-- The empty workbench. -/
def initial (supply : Supply) : Workbench := { supply }

/-- Puts a template into a slot. -/
def place (bench : Workbench) (name : Text) (slot : Slot) : Reply × Workbench :=
  (.placed bench.supply.queued.length, { bench with slots := Table.insert name slot bench.slots })

/-- Answers with what is in a slot. -/
def withSlot (bench : Workbench) (name : Text) (use : Slot → Reply × Workbench) : Reply × Workbench :=
  match bench.slots.lookup name with
  | some slot => use slot
  | none => (.noSlot name, bench)

/-- Compiles a source and puts the template into a slot. -/
def compile (bench : Workbench) (name source : Text) (ownership : Ownership) : Reply × Workbench :=
  let made := Template.make bench.config source bench.supply
  let later := { bench with supply := made.supply }
  match made.result with
  | .ok template => later.place name ⟨template, ownership⟩
  | .error error => (.notCompiled source error, later)

/-- Makes a template from its stored form and puts it into a slot. -/
def restore (bench : Workbench) (name text : Text) : Reply × Workbench :=
  let (result, supply) := Stored.makeTemplate text bench.supply
  let later := { bench with supply }
  match result with
  | .ok template => later.place name ⟨template, .owned⟩
  | .error fault => (.notRestored text fault, later)

/-- Expands a template with the given values, or with those of the workbench. -/
def expand (bench : Workbench) (template : Template) (values : Option Values) : Reply × Workbench :=
  let values := values.getD (Values.ofTexts bench.values)
  let environment := bench.environment ++ values.settings
  let later := { bench with environment }
  match template.expandToText (values.renderingsIn environment) with
  | .ok text => (.expanded text, later)
  | .error error => (.notExpanded template.source error, later)

/-- Takes a configuration for the templates to come. -/
def configure (bench : Workbench) (config : Config) : Reply × Workbench :=
  (.config config, { bench with config })

/-- Takes a configuration from its stored form. -/
def restoreConfig (bench : Workbench) (text : Text) : Reply × Workbench :=
  match Stored.configOfText text with
  | .ok config => bench.configure config
  | .error fault => (.notRestored text fault, bench)

/-- Compiles the empty source, which fails for no other reason than the configuration. -/
def checkConfig (bench : Workbench) : Reply × Workbench :=
  let made := Template.make bench.config [] bench.supply
  let later := { bench with supply := made.supply }
  match made.result with
  | .ok _ => (.usable, later)
  | .error error => (.notCompiled [] error, later)

/-- Does what a command says. -/
def run (bench : Workbench) : Command → Reply × Workbench
  | .configure config => bench.configure config
  | .editConfig change => bench.configure (bench.config.edit change)
  | .restoreConfig text => bench.restoreConfig text
  | .storeConfig => (.text (Stored.configText bench.config), bench)
  | .knowsName name => (.truth (bench.config.names.contains name), bench)
  | .isConfigDefault => (.truth (decide (bench.config = {})), bench)
  | .checkConfig => bench.checkConfig
  | .enqueue bases =>
    let supply := bench.supply.enqueue bases
    (.queued supply.queued.length, { bench with supply })
  | .setValue name value =>
    let values := Table.insert name value bench.values
    (.values values, { bench with values })
  | .unsetValue name =>
    let values := Table.erase name bench.values
    (.values values, { bench with values })
  | .listSlots => (.slots (bench.slots.map fun (name, slot) => (name, slot.ownership)), bench)
  | .compile name source ownership => bench.compile name source ownership
  | .restore name text => bench.restore name text
  | .expand name values => bench.withSlot name fun slot => bench.expand slot.template values
  | .occurrences name =>
    bench.withSlot name fun slot => (.occurrences slot.template.occurrences, bench)
  | .encoded name => bench.withSlot name fun slot => (.text slot.template.encoded, bench)
  | .inspect name => bench.withSlot name fun slot => (.inspected slot, bench)
  | .store name => bench.withSlot name fun slot => (.text (Stored.textOfTemplate slot.template), bench)
  | .copy name target => bench.withSlot name fun slot => bench.place target slot
  | .convert name =>
    bench.withSlot name fun slot => bench.place name { slot with ownership := slot.ownership.other }
  | .takeSource name =>
    bench.withSlot name fun slot =>
      (.text slot.template.source, { bench with slots := Table.erase name bench.slots })

/-- Does what commands say, one after the other. -/
def runAll (bench : Workbench) : List Command → List Reply × Workbench
  | [] => ([], bench)
  | command :: commands =>
    let (reply, later) := bench.run command
    let (replies, last) := later.runAll commands
    (reply :: replies, last)

@[simp] theorem runAll_nil (bench : Workbench) : bench.runAll [] = ([], bench) := rfl

@[simp] theorem runAll_cons (bench : Workbench) (command : Command) (commands : List Command) :
    bench.runAll (command :: commands) =
      ((bench.run command).1 :: ((bench.run command).2.runAll commands).1,
        ((bench.run command).2.runAll commands).2) := rfl

end Workbench
end Stencil
