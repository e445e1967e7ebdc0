import Stencil.Encoding
import Stencil.Files.Basic
import Stencil.Log
import Stencil.Settings

/-!
# Template sources

The text of a template is read from a file in an encoding. What stands in the way is one of three
causes: there is no such file, its bytes are no text, or the encoding is not known.
-/

namespace Stencil

/-- Why there is no text at a path. -/
inductive SourceError where
  /-- There is no file to read. -/
  | noFile (path : String) (fault : FileFault)
  /-- The encoding is not known. -/
  | noEncoding (path encoding : String) (fault : Encoding.NameFault)
  /-- The bytes of the file are no text. -/
  | noText (path encoding : String) (error : DecodeError)
  deriving Repr, DecidableEq

namespace SourceError

/-- The path that was to be read. -/
def path : SourceError → String
  | noFile path _ | noEncoding path _ _ | noText path _ _ => path

/-- The words for the cause. -/
def reason : SourceError → String
  | noFile _ fault => fault.text
  | noEncoding _ encoding _ => s!"unknown encoding '{encoding}'"
  | noText _ encoding e => s!"not valid {encoding}: {e.reason.text} at byte {e.start}"

/-- Whether a name could not even be looked up because of a null character in it. -/
def hasNull : SourceError → Bool
  | noFile _ .nullByte | noEncoding _ _ .nullCharacter => true
  | _ => false

/-- The message of an error. -/
def message (e : SourceError) : String :=
  match e with
  | noFile _ .nullByte => "embedded null byte"
  | noEncoding _ _ .nullCharacter => "embedded null character"
  | _ => s!"Cannot load template '{e.path}': {e.reason}"

end SourceError

/-- The name of the encoding to read with: the given one, unless it is missing or empty. -/
def Settings.encodingName (s : Settings) (name : Option String) : String :=
  match name with
  | none | some "" => s.defaultEncoding
  | some n => n

/-- The text of bytes that were read from a path. An empty file is an empty text whether or not the
encoding is known. -/
def textOfBytes (path encoding : String) (bytes : Bytes) : Except SourceError Text :=
  match Encoding.lookup encoding with
  | .error .nullCharacter => .error (.noEncoding path encoding .nullCharacter)
  | .error .unknown => if bytes.isEmpty then .ok [] else .error (.noEncoding path encoding .unknown)
  | .ok e =>
    match e.decode bytes with
    | .ok text => .ok text
    | .error error => .error (.noText path encoding error)

/-- The text at a path. -/
def readSource (files : Files) (path encoding : String) : Except SourceError Text :=
  match files.read (Path.ofString path) with
  | .ok bytes => textOfBytes path encoding bytes
  | .error fault => .error (.noFile path fault)

/-- Reads the text of a template. -/
def loadSource (settings : Settings) (files : Files) (path : String) (encoding : Option String) :
    Logged SourceError Text := do
  let name := settings.encodingName encoding
  match readSource files path name with
  | .error e => throw e
  | .ok text =>
    Logged.say 2 s!"Read {text.length} characters from {(Path.ofString path).name} ({name})"
    return text

end Stencil
