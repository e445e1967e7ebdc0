import Stencil.Text.Basic

/-!
# Positions and tokens in a YAML document

A cursor is the rest of a document together with its offset, line and column. A null character stands for
the end of the document, which holds none itself. Reading never goes beyond the end. Tokens are what a
document consists of, once indentation has become the beginning and the end of blocks; a fault is what
may be wrong with a document or with a value in it.
-/

namespace Stencil.Yaml

/-! ## Positions -/

/-- The character that stands for the end of the document. -/
def ending : Char := Char.ofNat 0

/-- Characters that break a line. -/
def isBreak (c : Char) : Bool :=
  c == '\n' || c == '\r' || c.toNat == 0x85 || c.toNat == 0x2028 || c.toNat == 0x2029

/-- A line break or the end of the document. -/
def endsLine (c : Char) : Bool :=
  c == ending || isBreak c

/-- A space, a line break or the end of the document. -/
def endsWord (c : Char) : Bool :=
  c == ' ' || endsLine c

/-- A space, a tab, a line break or the end of the document. -/
def endsMark (c : Char) : Bool :=
  c == '\t' || endsWord c

/-- A space or a tab. -/
def isGap (c : Char) : Bool :=
  c == ' ' || c == '\t'

/-- Whether a document may hold a character: no control characters but tab and line breaks, and no
noncharacters of the basic plane. -/
def isAllowed (c : Char) : Bool :=
  let n := c.toNat
  n == 9 || n == 10 || n == 13 || (0x20 ≤ n && n ≤ 0x7e) || n == 0x85 ||
    (0xa0 ≤ n && n ≤ 0xd7ff) || (0xe000 ≤ n && n ≤ 0xfffd) || 0x10000 ≤ n

/-- The rest of a document and where it begins. -/
structure Cursor where
  rest : Text
  index : Nat
  line : Nat
  column : Nat

namespace Cursor

/-- The beginning of a document. -/
def start (document : Text) : Cursor :=
  ⟨document, 0, 0, 0⟩

/-- The next character. -/
def peek (c : Cursor) : Char :=
  c.rest.headD ending

/-- The character after the next `n`. -/
def peekAt (c : Cursor) (n : Nat) : Char :=
  (c.rest[n]?).getD ending

/-- The cursor behind the next character. A carriage return in front of a line feed does not end the
line yet, and the byte order mark takes no column. -/
def next (c : Cursor) : Cursor :=
  match c.rest with
  | [] => c
  | ch :: r =>
    if isBreak ch && !(ch == '\r' && r.head? == some '\n') then ⟨r, c.index + 1, c.line + 1, 0⟩
    else if ch.toNat == 0xfeff then ⟨r, c.index + 1, c.line, c.column⟩
    else ⟨r, c.index + 1, c.line, c.column + 1⟩

/-- The cursor behind the next `n` characters. -/
def drop (c : Cursor) : Nat → Cursor
  | 0 => c
  | n + 1 => c.next.drop n

/-- The characters ahead that have a property, and the cursor behind them. -/
def span (p : Char → Bool) (c : Cursor) : Text × Cursor :=
  let t := c.rest.takeWhile p
  (t, c.drop t.length)

/-- The cursor behind the characters ahead that have a property. -/
def skip (p : Char → Bool) (c : Cursor) : Cursor :=
  (c.span p).2

/-- The cursor behind the spaces ahead. -/
def skipSpaces (c : Cursor) : Cursor :=
  c.skip (· == ' ')

/-- The cursor behind at most `n` spaces. -/
def skipIndent (n : Nat) (c : Cursor) : Cursor :=
  c.drop (min n (c.rest.takeWhile (· == ' ')).length)

/-- The line break ahead, as the text it stands for, and the cursor behind it. Without a line break the
text is empty. -/
def lineBreak (c : Cursor) : Text × Cursor :=
  match c.rest with
  | '\r' :: '\n' :: _ => (['\n'], c.drop 2)
  | ch :: _ =>
    if ch.toNat == 0x2028 || ch.toNat == 0x2029 then ([ch], c.next)
    else if isBreak ch then (['\n'], c.next)
    else ([], c)
  | [] => ([], c)

/-- Whether a marker of the beginning or the end of a document is ahead. -/
def atDocumentMark (c : Cursor) : Bool :=
  (['-', '-', '-'].isPrefixOf c.rest || ['.', '.', '.'].isPrefixOf c.rest) && endsMark (c.peekAt 3)

end Cursor

/-! ## Tokens -/

/-- What is wrong with a document. -/
inductive Fault where
  /-- The text is no YAML document of the kind that is read. -/
  | malformed
  /-- The code of an escape is beyond the last character. -/
  | codeOutOfRange
  /-- The code of an escape does not fit into 31 bits. -/
  | codeTooLarge
  /-- A scalar that has to be a number is none, with the words for it. -/
  | notNumber (message : String)
  /-- A scalar that has to be a number is empty. -/
  | emptyNumber
  /-- A scalar that has to be a truth value is none. -/
  | notBool (word : String)
  /-- A scalar that has to be a point in time is not written as one. -/
  | notTimestamp
  /-- A point in time does not exist, with the words for why. -/
  | noSuchTime (message : String)
  deriving Repr, DecidableEq

/-- A line in front of a document. -/
inductive Directive where
  | version (major minor : Nat)
  | tagPrefix (handle mark : String)
  | reserved
  deriving Repr, DecidableEq

/-- A token. `broken` stands where the document could not be read further. -/
inductive Token where
  | directive (d : Directive)
  | documentStart
  | documentEnd
  | blockSequenceStart
  | blockMappingStart
  | blockEnd
  | flowSequenceStart
  | flowSequenceEnd
  | flowMappingStart
  | flowMappingEnd
  | blockEntry
  | flowEntry
  | key
  | value
  | alias (name : String)
  | anchor (name : String)
  | tag (handle : Option String) (suffix : String)
  | scalar (text : String) (plain : Bool)
  | streamEnd
  | broken (fault : Fault)
  deriving Repr, DecidableEq

end Stencil.Yaml
