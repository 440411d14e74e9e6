import Stencil.Template.Basic
import Stencil.Values.Renderings

/-! Expansion: every occurrence is replaced by the rendering of its value that
fits its context. The first occurrence without one stops the expansion. A
template that is one literal is its own text, without a look at the values;
replacing no occurrences gives the same (`expandToText_eq`). -/

namespace Stencil

/-- The text that takes the place of an occurrence. -/
def Occurrence.expand (config : Config) (values : Renderings) (occurrence : Occurrence) :
    Except ExpandError Text :=
  match values.get? occurrence.context occurrence.name with
  | some text => .ok text
  | none => .error (.noSuchMacro (occurrence.position + Text.size config.startTag) occurrence.name)

/-- The text that takes the place of a segment. -/
def Segment.expand (config : Config) (values : Renderings) : Segment → Except ExpandError Text
  | .literal text => .ok text
  | .occurrence found => found.expand config values

/-- The text that takes the place of segments. -/
def Segment.expandAll (config : Config) (values : Renderings) : List Segment → Except ExpandError Text
  | [] => .ok []
  | segment :: rest =>
    match segment.expand config values with
    | .error error => .error error
    | .ok text => (expandAll config values rest).map (text ++ ·)

namespace Template

/-- The text of a template with the given values. -/
def expand (template : Template) (values : Renderings) : Except ExpandError Text :=
  Segment.expandAll template.config values template.segments

/-- The text of a template that is nothing but literal text. -/
def literal? (template : Template) : Option Text :=
  match template.segments with
  | [] => some []
  | [.literal text] => some text
  | _ => none

/-- The text of a template with the given values, which are not asked for if it is literal. -/
def expandToText (template : Template) (values : Renderings) : Except ExpandError Text :=
  match template.literal? with
  | some text => .ok text
  | none => template.expand values

/-- Literal text is what the expansion of a literal template gives. -/
theorem expand_of_literal? {template : Template} {text : Text} (literal : template.literal? = some text)
    (values : Renderings) : template.expand values = .ok text := by
  unfold literal? at literal
  split at literal
  · rename_i segments_eq
    obtain rfl := Option.some.inj literal
    rw [expand, segments_eq]
    rfl
  · rename_i only segments_eq
    obtain rfl := Option.some.inj literal
    rw [expand, segments_eq]
    simp [Segment.expandAll, Segment.expand, Except.map]
  · cases literal

/-- Whether or not a template is literal makes no difference to its text. -/
theorem expandToText_eq (template : Template) (values : Renderings) :
    template.expandToText values = template.expand values := by
  unfold expandToText
  cases literal : template.literal? with
  | some text => exact (expand_of_literal? literal values).symm
  | none => rfl

end Template
end Stencil
