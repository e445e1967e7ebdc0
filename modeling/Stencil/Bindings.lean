import Stencil.Bindings.Json
import Stencil.Bindings.Yaml.Value

/-!
# Bindings

Bindings are written as a mapping in YAML or in JSON. A document that holds nothing gives no bindings.
-/

namespace Stencil

/-- The notations in which bindings are written. -/
inductive Notation where
  | yaml
  | json
  deriving Repr, DecidableEq

/-- Why a text from some origin gives no bindings. -/
inductive BindingsError where
  /-- The text is no YAML document. -/
  | notYaml (origin : String)
  /-- The text is no JSON document; the words say where and why. -/
  | notJson (origin message : String)
  /-- The text holds something else than a mapping. -/
  | notMapping (origin kind : String)
  /-- A value in a YAML document cannot be read. -/
  | badValue (fault : Yaml.Fault)
  /-- An integer in a JSON document has too many digits. -/
  | tooManyDigits (message : String)
  deriving Repr, DecidableEq

/-- The words for a value in a YAML document that cannot be read. -/
def Yaml.Fault.message : Yaml.Fault → String
  | malformed => "not a YAML document"
  | codeOutOfRange => "chr() arg not in range(0x110000)"
  | codeTooLarge => "Python int too large to convert to C int"
  | notNumber message => message
  | emptyNumber => "string index out of range"
  | notBool word => Text.quotedString word
  | notTimestamp => "'NoneType' object has no attribute 'groupdict'"
  | noSuchTime message => message

/-- The message of an error. -/
def BindingsError.message : BindingsError → String
  | notYaml origin => s!"cannot parse {origin}: not a YAML document"
  | notJson origin message => s!"cannot parse {origin}: {message}"
  | notMapping origin kind => s!"{origin} must be a mapping, got {kind}"
  | badValue fault => fault.message
  | tooManyDigits message => message

/-- The bindings that a document holds. -/
def bindingsOfData (origin : String) : Data → Except BindingsError (List (Data × Data))
  | .none => .ok []
  | .dict entries => .ok entries
  | d => .error (.notMapping origin d.kind)

/-- Reads a document in a notation. -/
def documentOfText (origin : String) (form : Notation) (t : Text) : Except BindingsError Data :=
  match form with
  | .json =>
    match Json.read t with
    | .ok d => .ok d
    | .error (.tooManyDigits n) => .error (.tooManyDigits ((Json.Error.tooManyDigits n).message t))
    | .error e => .error (.notJson origin (e.message t))
  | .yaml =>
    match Yaml.read t with
    | .ok d => .ok d
    | .error .malformed => .error (.notYaml origin)
    | .error fault => .error (.badValue fault)

/-- The bindings that a text from some origin gives. -/
def bindingsOfText (origin : String) (form : Notation) (t : Text) :
    Except BindingsError (List (Data × Data)) := do
  bindingsOfData origin (← documentOfText origin form t)

end Stencil
