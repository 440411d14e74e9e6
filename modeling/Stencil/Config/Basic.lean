import Stencil.Config.Names

/-! The configuration that templates are compiled with: which macro names are
known, and the tags that open and close an occurrence of one. -/

namespace Stencil

/-- One of the two tags that enclose the name of a macro. -/
inductive Delimiter where
  | start
  | stop
deriving DecidableEq, Repr

/-- The known macro names and the tags around them. -/
structure Config where
  names : Names := Names.empty
  startTag : Text := ['$', '{']
  endTag : Text := ['}']
deriving DecidableEq

namespace Config

/-- The configuration with the given names and the default tags. -/
def ofNames (names : List Text) : Config := { names := Names.ofList names }

/-- A change of a configuration. -/
inductive Edit where
  /-- Starts over with the given names and the default tags. -/
  | names (given : List Text)
  | startTag (tag : Text)
  | endTag (tag : Text)
  | tags (start stop : Text)
deriving DecidableEq, Repr

/-- The configuration after a change. -/
def edit (config : Config) : Edit → Config
  | .names given => ofNames given
  | .startTag tag => { config with startTag := tag }
  | .endTag tag => { config with endTag := tag }
  | .tags start stop => { config with startTag := start, endTag := stop }

/-- The tag that is empty, if one is; the start tag is looked at first. No
template can be compiled with an empty tag. -/
def emptyDelimiter? (config : Config) : Option Delimiter :=
  if config.startTag = [] then some .start
  else if config.endTag = [] then some .stop
  else none

theorem emptyDelimiter?_eq_none_iff {config : Config} :
    config.emptyDelimiter? = none ↔ config.startTag ≠ [] ∧ config.endTag ≠ [] := by
  unfold emptyDelimiter?
  by_cases start : config.startTag = []
  · simp [start]
  · by_cases stop : config.endTag = [] <;> simp [start, stop]

/-- The known name whose occurrence a text begins with, and the text after the
end tag. Of several such names the one that is tried first counts. -/
def occurrence? (config : Config) (text : Text) : Option (Text × Text) := do
  let afterStart ← Text.after? config.startTag text
  config.names.toList.findSome? fun name => do
    let afterName ← Text.after? name afterStart
    let afterEnd ← Text.after? config.endTag afterName
    return (name, afterEnd)

/-- An occurrence at the beginning of a text is the start tag, a known name and the end tag. -/
theorem eq_of_occurrence?_eq_some {config : Config} {text name rest : Text}
    (found : config.occurrence? text = some (name, rest)) :
    name ∈ config.names.toList ∧ text = config.startTag ++ name ++ config.endTag ++ rest := by
  simp only [occurrence?, Option.bind_eq_bind, Option.bind_eq_some_iff] at found
  obtain ⟨afterStart, atStart, search⟩ := found
  obtain ⟨known, member, here⟩ := List.exists_of_findSome?_eq_some search
  simp only [Option.pure_def, Option.bind_eq_some_iff, Option.some.injEq, Prod.mk.injEq] at here
  obtain ⟨afterName, atName, afterEnd, atEnd, rfl, rfl⟩ := here
  rw [Text.after?_eq_some_iff] at atStart atName atEnd
  exact ⟨member, by simp [atStart, atName, atEnd]⟩

/-- What follows an occurrence is shorter than the text, because no name is empty. -/
theorem length_lt_of_occurrence?_eq_some {config : Config} {text name rest : Text}
    (found : config.occurrence? text = some (name, rest)) : rest.length < text.length := by
  obtain ⟨member, rfl⟩ := eq_of_occurrence?_eq_some found
  have positive := List.length_pos_iff.mpr (config.names.nonempty name member)
  simp only [List.length_append]
  omega

end Config
end Stencil
