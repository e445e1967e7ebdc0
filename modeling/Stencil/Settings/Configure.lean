import Stencil.Data
import Stencil.Encoding
import Stencil.Files.Basic
import Stencil.Settings
import Stencil.Settings.EnvFile
import Stencil.Text.Case

/-!
# Configuring the settings

Each setting is taken from the first source that has it: values given directly, the environment, an
environment file, the default. Names in the environment are read without regard to case. Every setting
that cannot be used is reported.
-/

namespace Stencil

/-- Why a value cannot be used for a setting. -/
inductive InvalidCause where
  | notText
  | notBool
  | unclearBool
  | unknownEncoding (name : String)
  | nullCharacter
  deriving Repr, DecidableEq

namespace InvalidCause

/-- The code of a cause. -/
def code : InvalidCause → String
  | notText => "string_type"
  | notBool => "bool_type"
  | unclearBool => "bool_parsing"
  | unknownEncoding _ | nullCharacter => "value_error"

/-- The message of a cause. -/
def message : InvalidCause → String
  | notText => "Input should be a valid string"
  | notBool => "Input should be a valid boolean"
  | unclearBool => "Input should be a valid boolean, unable to interpret input"
  | unknownEncoding name => s!"Value error, unknown encoding: {name}"
  | nullCharacter => "Value error, embedded null character"

end InvalidCause

/-- A setting that cannot be used. -/
structure InvalidSetting where
  field : String
  cause : InvalidCause
  deriving Repr, DecidableEq

namespace Settings

/-- The name of the setting for the encoding of files. -/
def encodingField : String := "default_encoding"

/-- The name of the setting for the name of templates. -/
def nameField : String := "default_filename"

/-- The name of the setting for logging generated programs. -/
def logField : String := "log_source"

/-- The name of the setting for open blocks. -/
def strictField : String := "strict_blocks"

/-- What stands before the names of the settings in the environment. -/
def environmentMark : String := "embtext_"

/-- The words for false. -/
def falseWords : List String := ["0", "f", "n", "no", "off", "false"]

/-- The words for true. -/
def trueWords : List String := ["1", "t", "y", "on", "yes", "true"]

/-- The truth value that a word stands for, in any case of its letters. -/
def boolOfText (s : String) : Except InvalidCause Bool :=
  let word := String.ofList (s.toList.map Char.toLower)
  if falseWords.contains word then .ok false
  else if trueWords.contains word then .ok true
  else .error .unclearBool

/-- The truth value that an integer stands for. Integers that do not fit into 64 bits are no truth
values at all. -/
def boolOfInt (i : Int) : Except InvalidCause Bool :=
  if i = 0 then .ok false
  else if i = 1 then .ok true
  else if -Int.pow 2 63 ≤ i && i < Int.pow 2 63 then .error .unclearBool
  else .error .notBool

/-- A value as a truth value. -/
def boolOf : Data → Except InvalidCause Bool
  | .bool b => .ok b
  | .str s => boolOfText s
  | .int i => boolOfInt i
  | .float x =>
    if x == 0.0 then .ok false
    else if x == 1.0 then .ok true
    else if x.floor == x && x.abs < 9223372036854775808.0 then .error .unclearBool
    else .error .notBool
  | _ => .error .notBool

/-- A value as a text. -/
def textOf : Data → Except InvalidCause String
  | .str s => .ok s
  | _ => .error .notText

/-- A value as the name of a known encoding. -/
def encodingOf (d : Data) : Except InvalidCause String := do
  let name ← textOf d
  match Encoding.lookup name with
  | .ok _ => return name
  | .error .unknown => throw (.unknownEncoding name)
  | .error .nullCharacter => throw .nullCharacter

/-- Where settings come from: values given by field, the environment, and the values of an environment
file. -/
structure Sources where
  given : List (String × Data)
  environment : List (String × String)
  file : EnvFile.Values

/-- The value that a field has in the first source that has one. -/
def Sources.value? (s : Sources) (field : String) : Option Data :=
  let key := environmentMark ++ field
  let named (name : String) : Bool := String.ofList (Text.lower name.toList) == key
  match s.given.reverse.find? fun entry => entry.1 == field with
  | some (_, d) => some d
  | none =>
    match s.environment.reverse.find? fun entry => named entry.1 with
    | some (_, v) => some (.str v)
    | none =>
      match s.file.reverse.find? fun entry => named entry.1 with
      | some (_, some v) => some (.str v)
      | _ => none

/-- Reads a field; one that no source has is the default. -/
def Sources.read {α : Type} (s : Sources) (field : String) (convert : Data → Except InvalidCause α)
    (default : α) : Except InvalidSetting α :=
  match s.value? field with
  | none => .ok default
  | some d =>
    match convert d with
    | .ok a => .ok a
    | .error cause => .error ⟨field, cause⟩

/-- What is wrong with a field. -/
def faultOf {α : Type} : Except InvalidSetting α → List InvalidSetting
  | .ok _ => []
  | .error e => [e]

/-- The settings that the sources give, or all that is wrong with them, sorted by field. -/
def ofSources (s : Sources) : Except (List InvalidSetting) Settings :=
  let encoding := s.read encodingField encodingOf default.defaultEncoding
  let name := s.read nameField textOf default.defaultName
  let log := s.read logField boolOf default.logSource
  let strict := s.read strictField boolOf default.strictBlocks
  match encoding, name, log, strict with
  | .ok encoding, .ok name, .ok log, .ok strict => .ok ⟨encoding, name, strict, log⟩
  | _, _, _, _ =>
    .error (faultOf encoding ++ faultOf name ++ faultOf log ++ faultOf strict)

/-- The values of the environment file at a path. A file that is missing gives none. -/
def fileValues (files : Files) (environment : List (String × String)) (path : String) :
    Except Encoding.StreamError EnvFile.Values :=
  match files.read (Path.ofString path) with
  | .error _ => .ok []
  | .ok bytes => do
    let t ← Encoding.utf8.readStream bytes
    return EnvFile.read environment t

end Settings

end Stencil
