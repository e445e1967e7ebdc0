import Stencil.Text.Letter
import Stencil.Encoding.Utf8
import Stencil.Encoding.Utf16
import Stencil.Encoding.Octet

/-!
# Encodings by their names, and texts in them

An encoding goes by many names. Names are compared by their letters, digits and points alone: case does
not matter, and whatever else stands between two of them counts as one separator. Bytes are read as a
whole, or as the stream of a text file, in which every line break counts as the same character and
UTF-16 has to begin with its mark.
-/

namespace Stencil.Encoding

/-! ## Names -/

/-- Whether a character is part of a name; all others separate the parts. -/
def isNamePart (c : Char) : Bool :=
  Text.isAsciiLetter c || Text.isAsciiDigit c || c == '.'

/-- The parts of a name in lower case with one underscore between them. `gap` says whether a separator
has been passed since the last part, `started` whether there is one before. -/
def normalizeFrom (gap started : Bool) : Text → Text
  | [] => []
  | c :: r =>
    if isNamePart c then
      (if gap && started then ['_', c.toLower] else [c.toLower]) ++ normalizeFrom false true r
    else normalizeFrom true started r

/-- A name in the form in which names are compared. -/
def normalize (name : String) : String :=
  String.ofList (normalizeFrom false false name.toList)

/-- The main names of the encodings. -/
def mainNames : List (String × Encoding) := [
  ("utf_8", utf8), ("utf_8_sig", utf8Marked), ("ascii", ascii), ("latin_1", latin1),
  ("cp1252", windows1252), ("utf_16", utf16Marked), ("utf_16_le", utf16Little),
  ("utf_16_be", utf16Big)]

/-- Further names of the encodings. -/
def otherNames : List (String × Encoding) := [
  ("u8", utf8), ("utf", utf8), ("utf8", utf8), ("utf8_ucs2", utf8), ("utf8_ucs4", utf8),
  ("cp65001", utf8),
  ("646", ascii), ("ansi_x3.4_1968", ascii), ("ansi_x3_4_1968", ascii), ("ansi_x3.4_1986", ascii),
  ("cp367", ascii), ("csascii", ascii), ("ibm367", ascii), ("iso646_us", ascii),
  ("iso_646.irv_1991", ascii), ("iso_ir_6", ascii), ("us", ascii), ("us_ascii", ascii),
  ("8859", latin1), ("cp819", latin1), ("csisolatin1", latin1), ("ibm819", latin1),
  ("iso8859", latin1), ("iso8859_1", latin1), ("iso_8859_1", latin1), ("iso_8859_1_1987", latin1),
  ("iso_ir_100", latin1), ("l1", latin1), ("latin", latin1), ("latin1", latin1),
  ("1252", windows1252), ("windows_1252", windows1252),
  ("u16", utf16Marked), ("utf16", utf16Marked),
  ("unicodelittleunmarked", utf16Little), ("utf_16le", utf16Little),
  ("unicodebigunmarked", utf16Big), ("utf_16be", utf16Big)]

/-- The encoding under a name in a list of names. -/
def named? (names : List (String × Encoding)) (name : String) : Option Encoding :=
  (names.find? fun entry => entry.1 == name).map (·.2)

/-- The encoding of a name; points in it may stand for separators. -/
def ofName? (name : String) : Option Encoding :=
  let n := normalize name
  let dotless := String.ofList (n.toList.map fun c => if c = '.' then '_' else c)
  named? otherNames n <|> named? otherNames dotless <|> named? mainNames n

/-- Why a name names no encoding. -/
inductive NameFault where
  | unknown
  | nullCharacter
  deriving Repr, DecidableEq

/-- The encoding of a name, which may not hold a null character. -/
def lookup (name : String) : Except NameFault Encoding :=
  if name.toList.contains (Char.ofNat 0) then .error .nullCharacter
  else
    match ofName? name with
    | some e => .ok e
    | none => .error .unknown

/-! ## Reading and writing -/

/-- The text that bytes stand for. -/
def decode : Encoding → Bytes → Except DecodeError Text
  | utf8 => Utf8.decode
  | utf8Marked => Utf8.decodeMarked
  | ascii => Octet.ascii.decode
  | latin1 => Octet.latin1.decode
  | windows1252 => Octet.windows1252.decode
  | utf16Marked => Utf16.decodeMarked
  | utf16Little => Utf16.decode .little
  | utf16Big => Utf16.decode .big

/-- The bytes of a text. -/
def encode : Encoding → Text → Except EncodeError Bytes
  | utf8, t => .ok (Utf8.encode t)
  | utf8Marked, t => .ok (Utf8.mark ++ Utf8.encode t)
  | ascii, t => Octet.ascii.encode t
  | latin1, t => Octet.latin1.encode t
  | windows1252, t => Octet.windows1252.encode t
  | utf16Marked, t => .ok (Utf16.encodeMarked t)
  | utf16Little, t => .ok (Utf16.encode .little t)
  | utf16Big, t => .ok (Utf16.encode .big t)

/-- Why the stream of a text file cannot be read. -/
inductive StreamError where
  | undecodable (error : DecodeError)
  | notMarked
  deriving Repr, DecidableEq

/-- The message of an error of reading a stream. -/
def StreamError.message : StreamError → String
  | undecodable e => e.message
  | notMarked => "UTF-16 stream does not start with BOM"

/-- A text in which every line break is a line feed. -/
def unifyBreaks : Text → Text
  | '\r' :: '\n' :: r => '\n' :: unifyBreaks r
  | '\r' :: r => '\n' :: unifyBreaks r
  | c :: r => c :: unifyBreaks r
  | [] => []

/-- The text of a file that is read as a stream. A beginning of the UTF-8 mark alone is no text yet. -/
def readStream (e : Encoding) (bytes : Bytes) : Except StreamError Text := do
  if e = utf8Marked && bytes.length < 3 && bytes.isPrefixOf Utf8.mark then return []
  match e.decode bytes with
  | .error error => throw (.undecodable error)
  | .ok t =>
    if e = utf16Marked && 2 ≤ bytes.length && (Utf16.orderOf? bytes).isNone then throw .notMarked
    return unifyBreaks t

end Stencil.Encoding
