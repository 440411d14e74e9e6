import Stencil.Template.Reading
import Stencil.Stored.Template
import Stencil.Values.Basic

/-! What can be done at a workbench, and what is answered. Templates lie in
named slots, and a slot tells whether its template owns the source. -/

namespace Stencil

/-- Whether a template owns its source or only borrows it. -/
inductive Ownership where
  | owned
  | borrowed
deriving DecidableEq, Repr

/-- The other kind of ownership. -/
def Ownership.other : Ownership → Ownership
  | .owned => .borrowed
  | .borrowed => .owned

/-- A template in a slot. -/
structure Slot where
  template : Template
  ownership : Ownership

/-- The words that describe a slot to people: what it holds, and the source in quotes. -/
def Slot.describe (slot : Slot) : Text :=
  let kind := match slot.ownership with
    | .owned => "TemplateBuf"
    | .borrowed => "Template"
  kind.toList ++ ['('] ++ Text.quote slot.template.source ++ [')']

/-- What can be done at a workbench. -/
inductive Command where
  /-- Takes a configuration for the templates to come. -/
  | configure (config : Config)
  | editConfig (change : Config.Edit)
  | restoreConfig (text : Text)
  | storeConfig
  /-- Asks whether a name is known. -/
  | knowsName (name : Text)
  /-- Asks whether the configuration is the one of an empty workbench. -/
  | isConfigDefault
  /-- Asks whether templates can be compiled with the configuration at all. -/
  | checkConfig
  | enqueue (bases : List Nat)
  | setValue (name value : Text)
  | unsetValue (name : Text)
  | listSlots
  | compile (slot source : Text) (ownership : Ownership)
  /-- Makes a template from its stored form. -/
  | restore (slot text : Text)
  /-- Expands a template with the given values, or with those of the workbench. -/
  | expand (slot : Text) (values : Option Values)
  | occurrences (slot : Text)
  | encoded (slot : Text)
  | inspect (slot : Text)
  | store (slot : Text)
  | copy (slot target : Text)
  /-- Turns an owned template into a borrowed one and the other way around. -/
  | convert (slot : Text)
  /-- Takes a template away and keeps its source. -/
  | takeSource (slot : Text)

/-- The slot whose template a command uses. -/
def Command.slot? : Command → Option Text
  | .expand slot _ | .occurrences slot | .encoded slot | .inspect slot | .store slot | .copy slot _
  | .convert slot | .takeSource slot => some slot
  | _ => none

/-- The slot that a command fills, or empties. -/
def Command.target? : Command → Option Text
  | .compile slot _ _ | .restore slot _ | .copy _ slot | .convert slot | .takeSource slot => some slot
  | _ => none

/-- What a command answers. -/
inductive Reply where
  | config (config : Config)
  | truth (answer : Bool)
  /-- Templates can be compiled with the configuration. -/
  | usable
  /-- The number of bases in the queue. -/
  | queued (bases : Nat)
  | values (table : List (Text × Text))
  | slots (table : List (Text × Ownership))
  /-- A template was put into a slot, and there are so many bases left in the queue. -/
  | placed (bases : Nat)
  | expanded (text : Text)
  | occurrences (found : List Occurrence)
  | text (text : Text)
  | inspected (slot : Slot)
  | noSlot (name : Text)
  | notCompiled (source : Text) (error : ParseError)
  | notRestored (text : Text) (fault : Json.Fault)
  | notExpanded (source : Text) (error : ExpandError)

/-- Whether an answer tells that the command failed. -/
def Reply.isFailure : Reply → Bool
  | .noSlot _ | .notCompiled _ _ | .notRestored _ _ | .notExpanded _ _ => true
  | _ => false

end Stencil
