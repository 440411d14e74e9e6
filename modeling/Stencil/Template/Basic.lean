import Stencil.Template.Numbered
import Stencil.Template.RawToken
import Stencil.Document.Reader

/-! Compiled templates. To compile a source means to find its occurrences and
to find out how each of their values is to be written. For that the source is
read as a document in which a number stands in for each occurrence; a source
without occurrences is not read and may be any text. -/

namespace Stencil

/-- A compiled template. -/
structure Template where
  source : Text
  config : Config
  segments : List Segment
deriving DecidableEq

/-- The outcome of compiling: the template, and its raw occurrences in the
order in which they were found in the encoded document. -/
structure Compiled where
  template : Template
  rawTokens : List Occurrence

namespace Template

/-- The occurrences of the template. -/
def occurrences (template : Template) : List Occurrence := occurrencesOf template.segments

/-- The document in which every occurrence is replaced by its code. -/
def encoded (template : Template) : Text := encodedOf template.segments

/-- The occurrences whose values are tokens of their own. -/
def rawOccurrences (template : Template) : List Occurrence :=
  template.occurrences.filter fun occurrence => occurrence.context = .raw

/-- An error in the encoded document as an error in the source. -/
def errorInSource (config : Config) (source : Text) (segments : List Segment)
    (error : Document.SyntaxError) : ParseError :=
  match error.found with
  | some found =>
    let position := Segment.sourceOffset config 0 segments error.position
    .unexpectedCharacter position ((Text.charAt? source position).getD found) error.expected
  | none => .unexpectedEnd (Text.size source) error.expected

/-- Finds the raw occurrences among numbered segments. -/
def findRaw (config : Config) (source : Text) (segments : List Segment) :
    Except ParseError (List Occurrence) :=
  if occurrencesOf segments = [] then .ok []
  else
    match Document.parse (encodedOf segments) with
    | .ok root => .ok (rawTokens source (occurrencesOf segments) root)
    | .error error => .error (errorInSource config source segments error)

/-- Compiles a source with codes of the given base. -/
def compile (config : Config) (source : Text) (base : Nat) : Except ParseError Compiled :=
  match config.emptyDelimiter? with
  | some delimiter => .error (.emptyDelimiter delimiter)
  | none =>
    match Segment.ofSource config source base with
    | .error error => .error error
    | .ok segments =>
      match findRaw config source segments with
      | .error error => .error error
      | .ok raw => .ok ⟨⟨source, config, markRaw raw segments⟩, raw⟩

end Template
end Stencil
