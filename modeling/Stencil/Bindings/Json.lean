import Stencil.Data
import Stencil.Text.Basic
import Stencil.Decimal.Notation

/-!
# JSON documents

Reads a JSON document as a data tree. Besides the standard's values, `NaN`, `Infinity` and `-Infinity`
are numbers. An error is a cause and a position, and its message names line, column and offset.
-/

namespace Stencil.Json

/-- Why a text is not a JSON document. -/
inductive Cause where
  | expectingValue
  | expectingName
  | expectingColon
  | expectingComma
  | controlCharacter
  | unterminated
  | badEscape
  | badCode
  | extraData
  | byteOrderMark
  | nestedTooDeep
  deriving Repr, DecidableEq

/-- The words for a cause. -/
def Cause.text : Cause → String
  | expectingValue => "Expecting value"
  | expectingName => "Expecting property name enclosed in double quotes"
  | expectingColon => "Expecting ':' delimiter"
  | expectingComma => "Expecting ',' delimiter"
  | controlCharacter => "Invalid control character at"
  | unterminated => "Unterminated string starting at"
  | badEscape => "Invalid \\escape"
  | badCode => "Invalid \\uXXXX escape"
  | extraData => "Extra data"
  | byteOrderMark => "Unexpected UTF-8 BOM (decode using utf-8-sig)"
  | nestedTooDeep => "maximum nesting exceeded"

/-- An error of reading: a cause at an offset, or an integer with too many digits. -/
inductive Error where
  | at (cause : Cause) (offset : Nat)
  | tooManyDigits (count : Nat)
  deriving Repr, DecidableEq

/-- The message of an error in a document. -/
def Error.message (document : Text) : Error → String
  | .at cause offset =>
    let before := document.take offset
    let line := Text.breaks before + 1
    let column := (before.reverse.takeWhile (· ≠ '\n')).length + 1
    s!"{cause.text}: line {line} column {column} (char {offset})"
  | .tooManyDigits n =>
    s!"Exceeds the limit (4300 digits) for integer string conversion: value has {n} digits; " ++
      "use sys.set_int_max_str_digits() to increase the limit"

/-- The rest of a document together with its offset. -/
structure Cursor where
  offset : Nat
  rest : Text

/-- Moves behind a number of characters. -/
def Cursor.drop (c : Cursor) (n : Nat) : Cursor :=
  ⟨c.offset + n, c.rest.drop n⟩

/-- The white space of JSON. -/
def isSpace (c : Char) : Bool :=
  c == ' ' || c == '\t' || c == '\n' || c == '\r'

/-- Moves behind white space. -/
def Cursor.skip (c : Cursor) : Cursor :=
  c.drop (c.rest.takeWhile isSpace).length

/-- The value of a hexadecimal digit. -/
def hexValue? (c : Char) : Option Nat :=
  if '0' ≤ c && c ≤ '9' then some (c.toNat - 48)
  else if 'a' ≤ c && c ≤ 'f' then some (c.toNat - 87)
  else if 'A' ≤ c && c ≤ 'F' then some (c.toNat - 55)
  else none

/-- The value of a text of hexadecimal digits. -/
def hexNumber? (t : Text) : Option Nat :=
  t.foldlM (fun n c => (hexValue? c).map (16 * n + ·)) 0

/-- The character that a letter behind a backslash stands for. -/
def escaped? : Char → Option Char
  | '"' => some '"'
  | '\\' => some '\\'
  | '/' => some '/'
  | 'b' => some (Char.ofNat 8)
  | 'f' => some (Char.ofNat 12)
  | 'n' => some '\n'
  | 'r' => some '\r'
  | 't' => some '\t'
  | _ => none

/-- A code unit in the upper half of a surrogate pair. -/
def isHighSurrogate (n : Nat) : Bool :=
  0xd800 ≤ n && n < 0xdc00

/-- A code unit in the lower half of a surrogate pair. -/
def isLowSurrogate (n : Nat) : Bool :=
  0xdc00 ≤ n && n < 0xe000

/-- The character of a code; half of a surrogate pair alone becomes the replacement character. -/
def charOf (n : Nat) : Char :=
  if 0xd800 ≤ n && n < 0xe000 then Char.ofNat 0xfffd else Char.ofNat n

/-- A code behind a backslash and `u`, with a second one that completes a surrogate pair. The cursor
stands behind the `u`; the result is the character and how many characters were read. -/
def readCode (c : Cursor) : Except Error (Char × Nat) := do
  if c.rest.length ≤ 4 then throw (.at .badCode (c.offset - 1))
  let some high := hexNumber? (c.rest.take 4) | throw (.at .badCode (c.offset - 1))
  let tail := c.rest.drop 4
  if isHighSurrogate high && 7 ≤ tail.length && tail.take 2 == ['\\', 'u'] then
    let some low := hexNumber? ((tail.drop 2).take 4) | throw (.at .badCode (c.offset + 5))
    if isLowSurrogate low then
      return (Char.ofNat (0x10000 + (high - 0xd800) * 0x400 + (low - 0xdc00)), 10)
  return (charOf high, 4)

/-- The characters of a string up to its closing quote. The cursor stands behind the opening quote,
which is at `start`. -/
def readString (start : Nat) : Nat → Cursor → Text → Except Error (Text × Cursor)
  | 0, _, _ => throw (.at .unterminated start)
  | fuel + 1, c, acc =>
    match c.rest with
    | [] => throw (.at .unterminated start)
    | '"' :: _ => return (acc.reverse, c.drop 1)
    | ['\\'] => throw (.at .unterminated start)
    | '\\' :: 'u' :: _ => do
      let (ch, n) ← readCode (c.drop 2)
      readString start fuel (c.drop (2 + n)) (ch :: acc)
    | '\\' :: e :: _ =>
      match escaped? e with
      | some ch => readString start fuel (c.drop 2) (ch :: acc)
      | none => throw (.at .badEscape c.offset)
    | ch :: _ =>
      if ch.toNat ≤ 0x1f then throw (.at .controlCharacter c.offset)
      else readString start fuel (c.drop 1) (ch :: acc)

/-- A string whose opening quote is at the cursor. -/
def string (c : Cursor) : Except Error (String × Cursor) := do
  let (t, c') ← readString c.offset (c.rest.length + 1) (c.drop 1) []
  return (String.ofList t, c')

/-- The part of a number behind the point, where a digit follows the point. -/
def fractionPart : Text → Option Text
  | '.' :: r => match (Decimal.spanDigits r).1 with
    | [] => none
    | ds => some ds
  | _ => none

/-- A number at the cursor: an integer without a superfluous zero in front, and, where there is one, a
fraction or an exponent, which make it a floating-point number. -/
def number (c : Cursor) : Except Error (Data × Cursor) := do
  let (negative, body) := match c.rest with
    | '-' :: r => (true, r)
    | r => (false, r)
  let whole := match body with
    | '0' :: _ => ['0']
    | r => (Decimal.spanDigits r).1
  if whole.isEmpty then throw (.at .expectingValue c.offset)
  let afterWhole := body.drop whole.length
  let fraction := fractionPart afterWhole
  let afterFraction := match fraction with
    | some ds => afterWhole.drop (ds.length + 1)
    | none => afterWhole
  let (power, rest) := Decimal.readPower afterFraction
  let next : Cursor := c.drop (c.rest.length - rest.length)
  if fraction.isNone && power.isNone then
    if 4300 < whole.length then throw (.tooManyDigits whole.length)
    let n : Int := Decimal.ofDigits whole
    return (.int (if negative then -n else n), next)
  let numeral : Decimal.Numeral := ⟨whole, fraction, power⟩
  return (.float (numeral.value negative), next)

/-- The words that stand for values. -/
def words : List (Text × Data) :=
  [("null".toList, .none), ("true".toList, .bool true), ("false".toList, .bool false),
   ("NaN".toList, .float (0.0 / 0.0)), ("Infinity".toList, .float (1.0 / 0.0)),
   ("-Infinity".toList, .float (-1.0 / 0.0))]

mutual

/-- A value at the cursor. -/
def value : Nat → Cursor → Except Error (Data × Cursor)
  | 0, c => throw (.at .nestedTooDeep c.offset)
  | fuel + 1, c =>
    match c.rest with
    | [] => throw (.at .expectingValue c.offset)
    | '"' :: _ => do
      let (s, c') ← string c
      return (.str s, c')
    | '[' :: _ =>
      let c' := (c.drop 1).skip
      match c'.rest with
      | ']' :: _ => return (.list [], c'.drop 1)
      | _ => elements fuel c' []
    | '{' :: _ =>
      let c' := (c.drop 1).skip
      match c'.rest with
      | '}' :: _ => return (.dict [], c'.drop 1)
      | _ => members fuel c' []
    | _ =>
      match words.find? fun (w, _) => w.isPrefixOf c.rest with
      | some (w, d) => return (d, c.drop w.length)
      | none => number c

/-- The elements of an array from the cursor on. -/
def elements : Nat → Cursor → List Data → Except Error (Data × Cursor)
  | 0, c, _ => throw (.at .nestedTooDeep c.offset)
  | fuel + 1, c, acc => do
    let (d, c') ← value fuel c
    let c' := c'.skip
    match c'.rest with
    | ']' :: _ => return (.list (d :: acc).reverse, c'.drop 1)
    | ',' :: _ => elements fuel (c'.drop 1).skip (d :: acc)
    | _ => throw (.at .expectingComma c'.offset)

/-- The members of an object from the cursor on. A repeated name keeps its first place and its last
value. -/
def members : Nat → Cursor → List (Data × Data) → Except Error (Data × Cursor)
  | 0, c, _ => throw (.at .nestedTooDeep c.offset)
  | fuel + 1, c, acc => do
    let '"' :: _ := c.rest | throw (.at .expectingName c.offset)
    let (name, c') ← string c
    let c' := c'.skip
    let ':' :: _ := c'.rest | throw (.at .expectingColon c'.offset)
    let (d, c') ← value fuel (c'.drop 1).skip
    let acc := Data.setEntry (.str name) d acc
    let c' := c'.skip
    match c'.rest with
    | '}' :: _ => return (.dict acc, c'.drop 1)
    | ',' :: _ => members fuel (c'.drop 1).skip acc
    | _ => throw (.at .expectingComma c'.offset)

end

/-- Reads a whole document: one value between white space. -/
def read (document : Text) : Except Error Data := do
  if document.head? == some (Char.ofNat 0xfeff) then throw (.at .byteOrderMark 0)
  let (d, c) ← value (2 * document.length + 2) (Cursor.mk 0 document).skip
  let c := c.skip
  if c.rest.isEmpty then return d
  throw (.at .extraData c.offset)

end Stencil.Json
