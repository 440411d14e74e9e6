import Stencil.Template.Basic
import Stencil.Code.Allocator

/-! Making templates. A base is drawn from the supply, whether or not the
source can be compiled with it, and a log tells what happened. -/

namespace Stencil

/-- What is worth telling while a template is made. -/
inductive LogRecord where
  | baseRejected (base : Nat)
  | rawToken (name : Text) (position : Nat)
  | compiled (size segments occurrences raw : Nat)
deriving DecidableEq, Repr

namespace LogRecord

/-- The words of a record. -/
def message : LogRecord → String
  | .baseRejected base =>
    "macro code base " ++ String.ofList (Decimal.digits base) ++
      " can not be used for this template, drawing a new one"
  | .rawToken name position =>
    "macro " ++ String.ofList (Text.quote name) ++ " at byte " ++
      String.ofList (Decimal.digits position) ++ " is used as a raw token"
  | .compiled size segments occurrences raw =>
    "compiled template of " ++ String.ofList (Decimal.digits size) ++ " bytes into " ++
      String.ofList (Decimal.digits segments) ++ " segments with " ++
      String.ofList (Decimal.digits occurrences) ++ " macro occurrences (" ++
      String.ofList (Decimal.digits raw) ++ " raw)"

/-- How important a record is. -/
def level : LogRecord → String
  | .baseRejected _ | .rawToken _ _ => "TRACE"
  | .compiled _ _ _ _ => "DEBUG"

/-- The line of a record. -/
def line (record : LogRecord) : String := record.level ++ " " ++ record.message

/-- The records of a successful compilation. -/
def ofCompiled (compiled : Compiled) : List LogRecord :=
  compiled.rawTokens.map (fun found => .rawToken found.name found.position) ++
    [.compiled (Text.size compiled.template.source) compiled.template.segments.length
      compiled.template.occurrences.length compiled.template.rawOccurrences.length]

end LogRecord

namespace Template

/-- The outcome of making a template: the template or the reason why there is
none, what was told, and the supply that is left. -/
structure Made where
  result : Except ParseError Template
  log : List LogRecord
  supply : Supply

/-- Makes a template with the first base of the supply that fits the source. -/
def make (config : Config) (source : Text) (supply : Supply) : Made :=
  let drawn := Supply.draw source supply
  let rejected := drawn.rejected.map .baseRejected
  match compile config source drawn.base with
  | .error error => ⟨.error error, rejected, drawn.supply⟩
  | .ok compiled => ⟨.ok compiled.template, rejected ++ LogRecord.ofCompiled compiled, drawn.supply⟩

/-- What compiling a source gives when the search for a base has had so many
turns: nothing as long as the search goes on. -/
def compileAfter (config : Config) (source : Text) (numbers : Nat → Nat) (turns : Nat) :
    Option (Except ParseError Compiled) :=
  (Search.after source numbers turns).base?.map (compile config source)

end Template
end Stencil
