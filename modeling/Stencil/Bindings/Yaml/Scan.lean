import Stencil.Bindings.Yaml.Property

/-!
# Scanning YAML

Turns a document into tokens. Indentation becomes the beginning and the end of blocks. A key of a mapping
is known as such only when its colon is found, so every place where a key may begin keeps a free slot, into
which the tokens of the key are put then.
-/

namespace Stencil.Yaml

/-- A place where a key may have begun. A required key has to be followed by its colon. -/
structure PossibleKey where
  slot : Nat
  required : Bool
  index : Nat
  line : Nat
  column : Nat

/-- The state of scanning: the cursor, the slots filled so far, the depth of brackets, the column of the
block and of the blocks around it, whether a key may begin here, and for each depth of brackets the place
where one may have begun. -/
structure Scanner where
  cursor : Cursor
  slots : Array (List Token)
  depth : Int
  indent : Int
  outer : List Int
  keyAllowed : Bool
  keys : List (Int × PossibleKey)

/-- The greatest distance between the beginning of a key and its colon. -/
def keyLimit : Nat := 1024

namespace Scanner

/-- The state at the beginning of a document. -/
def start (document : Text) : Scanner :=
  ⟨Cursor.start document, #[], 0, -1, [], true, []⟩

/-- Whether the cursor is outside all brackets. -/
def inBlock (s : Scanner) : Bool :=
  s.depth == 0

/-- The state with one more token. -/
def push (s : Scanner) (t : Token) : Scanner :=
  { s with slots := s.slots.push [t] }

/-- Moves to the next token, behind spaces, comments and line breaks. -/
def skipToToken : Nat → Scanner → Scanner
  | 0, s => s
  | fuel + 1, s =>
    let c := s.cursor.skipSpaces
    let c := if c.peek == '#' then c.skip fun ch => !endsLine ch else c
    if isBreak c.peek then
      skipToToken fuel
        { s with cursor := c.lineBreak.2, keyAllowed := s.keyAllowed || s.inBlock }
    else { s with cursor := c }

/-- Forgets the keys that did not end on their line or in time. -/
def dropStaleKeys (s : Scanner) : Except Fault Scanner :=
  let stale (k : PossibleKey) : Bool :=
    k.line != s.cursor.line || keyLimit < s.cursor.index - k.index
  if s.keys.any fun (_, k) => stale k && k.required then .error .malformed
  else .ok { s with keys := s.keys.filter fun (_, k) => !stale k }

/-- Ends the blocks that begin behind a column. -/
def closeBlocks (column : Int) : List Int → Scanner → Scanner
  | [], s => s
  | outer :: rest, s =>
    if column < s.indent then
      closeBlocks column rest { s.push .blockEnd with indent := outer, outer := rest }
    else s

/-- Ends the blocks that begin behind a column, outside brackets. -/
def unwind (s : Scanner) (column : Int) : Scanner :=
  if s.inBlock then closeBlocks column s.outer s else s

/-- Begins a block at a column, unless the block around begins there. -/
def openBlock? (s : Scanner) (column : Int) : Option Scanner :=
  if s.indent < column then some { s with outer := s.indent :: s.outer, indent := column } else none

/-- The place where a key may have begun within the brackets around the cursor. -/
def key? (s : Scanner) : Option PossibleKey :=
  (s.keys.find? fun k => k.1 == s.depth).map (·.2)

/-- Forgets that place. -/
def dropKey (s : Scanner) : Except Fault Scanner :=
  match s.key? with
  | some k =>
    if k.required then .error .malformed
    else .ok { s with keys := s.keys.filter fun k => k.1 != s.depth }
  | none => .ok s

/-- Keeps the cursor as a place where a key may begin, if one may. -/
def saveKey (s : Scanner) : Except Fault Scanner := do
  if s.keyAllowed then
    let s ← s.dropKey
    let k : PossibleKey := {
      slot := s.slots.size
      required := s.inBlock && s.indent == s.cursor.column
      index := s.cursor.index
      line := s.cursor.line
      column := s.cursor.column }
    return { s with slots := s.slots.push [], keys := (s.depth, k) :: s.keys }
  else return s

/-- Reads a character that is a token. -/
def mark (s : Scanner) (t : Token) : Scanner :=
  { s.push t with cursor := s.cursor.next }

/-- The end of the document. -/
def endStream (s : Scanner) : Except Fault Scanner := do
  let s ← (s.unwind (-1)).dropKey
  return { s.push .streamEnd with keyAllowed := false, keys := [] }

/-- A directive. -/
def readDirective (s : Scanner) : Except Fault Scanner := do
  let s ← (s.unwind (-1)).dropKey
  let (d, c) ← directive s.cursor
  return { s.push (.directive d) with cursor := c, keyAllowed := false }

/-- A marker of the beginning or the end of a document. -/
def readDocumentMark (s : Scanner) (t : Token) : Except Fault Scanner := do
  let s ← (s.unwind (-1)).dropKey
  return { s.push t with cursor := s.cursor.drop 3, keyAllowed := false }

/-- An opening bracket. -/
def openBracket (s : Scanner) (t : Token) : Except Fault Scanner := do
  let s ← s.saveKey
  return { s.mark t with depth := s.depth + 1, keyAllowed := true }

/-- A closing bracket. -/
def closeBracket (s : Scanner) (t : Token) : Except Fault Scanner := do
  let s ← s.dropKey
  return { s.mark t with depth := s.depth - 1, keyAllowed := false }

/-- A comma between brackets. -/
def readComma (s : Scanner) : Except Fault Scanner := do
  let s ← s.dropKey
  return { s.mark .flowEntry with keyAllowed := true }

/-- Begins a block at the cursor for an entry or a key that has a mark of its own. -/
def openAt (s : Scanner) (t : Token) : Except Fault Scanner :=
  if !s.inBlock then .ok s
  else if !s.keyAllowed then .error .malformed
  else
    match s.openBlock? s.cursor.column with
    | some s' => .ok (s'.push t)
    | none => .ok s

/-- The mark of an entry of a sequence. -/
def readEntryMark (s : Scanner) : Except Fault Scanner := do
  let s ← s.openAt .blockSequenceStart
  let s ← { s with keyAllowed := true }.dropKey
  return s.mark .blockEntry

/-- The mark of a key. -/
def readKeyMark (s : Scanner) : Except Fault Scanner := do
  let s ← s.openAt .blockMappingStart
  let s ← { s with keyAllowed := s.inBlock }.dropKey
  return s.mark .key

/-- The mark of a value. Where a key may have begun, its tokens are put into its slot. -/
def readValueMark (s : Scanner) : Except Fault Scanner := do
  match s.key? with
  | some k =>
    let s := { s with keys := s.keys.filter fun k => k.1 != s.depth, keyAllowed := false }
    let opened := if s.inBlock then s.openBlock? k.column else none
    let s := match opened with
      | some s' => { s' with slots := s'.slots.setIfInBounds k.slot [.blockMappingStart, .key] }
      | none => { s with slots := s.slots.setIfInBounds k.slot [.key] }
    return s.mark .value
  | none =>
    let s ← s.openAt .blockMappingStart
    let s ← { s with keyAllowed := s.inBlock }.dropKey
    return s.mark .value

/-- An anchor or an alias. -/
def readAnchor (s : Scanner) (make : String → Token) : Except Fault Scanner := do
  let s ← s.saveKey
  let (n, c) ← anchorName s.cursor
  return { s.push (make n) with cursor := c, keyAllowed := false }

/-- A tag. -/
def readTag (s : Scanner) : Except Fault Scanner := do
  let s ← s.saveKey
  let (t, c) ← tag s.cursor
  return { s.push t with cursor := c, keyAllowed := false }

/-- A scalar that is a block of lines. -/
def readBlock (s : Scanner) (fold : Bool) : Except Fault Scanner := do
  let s ← { s with keyAllowed := true }.dropKey
  let (t, c) ← blockScalar fold s.indent s.cursor.next
  return { s.push (.scalar (String.ofList t) false) with cursor := c }

/-- A scalar between quotes. -/
def readQuoted (s : Scanner) (double : Bool) : Except Fault Scanner := do
  let s ← s.saveKey
  let c := s.cursor.next
  let (t, c) ← quotedScalar double (2 * c.rest.length + 2) c []
  return { s.push (.scalar (String.ofList t) false) with cursor := c, keyAllowed := false }

/-- A plain scalar. -/
def readPlain (s : Scanner) : Except Fault Scanner := do
  let s ← s.saveKey
  let (t, c, broke) :=
    plainScalar (!s.inBlock) (s.indent + 1) (s.cursor.rest.length + 1) s.cursor [] [] false
  return { s.push (.scalar (String.ofList t) true) with cursor := c, keyAllowed := broke }

/-- Characters that no plain scalar begins with. -/
def indicators : Text := "-?:,[]\x7b\x7d#&*!|>'\"%@`".toList

/-- Whether a plain scalar begins at the cursor. -/
def atPlain (s : Scanner) : Bool :=
  let c := s.cursor.peek
  !(endsMark c || indicators.contains c) ||
    (!endsMark (s.cursor.peekAt 1) && (c == '-' || (s.inBlock && (c == '?' || c == ':'))))

/-- Reads the token at the cursor. -/
def readToken (s : Scanner) : Except Fault Scanner :=
  let c := s.cursor
  let apart := endsMark (c.peekAt 1)
  let marked := c.column == 0 && c.atDocumentMark
  match c.peek with
  | '%' => if c.column == 0 then s.readDirective else .error .malformed
  | '[' => s.openBracket .flowSequenceStart
  | '\x7b' => s.openBracket .flowMappingStart
  | ']' => s.closeBracket .flowSequenceEnd
  | '\x7d' => s.closeBracket .flowMappingEnd
  | ',' => s.readComma
  | '*' => s.readAnchor .alias
  | '&' => s.readAnchor .anchor
  | '!' => s.readTag
  | '\'' => s.readQuoted false
  | '"' => s.readQuoted true
  | ch =>
    if c.rest.isEmpty then s.endStream
    else if ch == '-' && marked then s.readDocumentMark .documentStart
    else if ch == '.' && marked then s.readDocumentMark .documentEnd
    else if ch == '-' && apart then s.readEntryMark
    else if ch == '?' && (apart || !s.inBlock) then s.readKeyMark
    else if ch == ':' && (apart || !s.inBlock) then s.readValueMark
    else if ch == '|' && s.inBlock then s.readBlock false
    else if ch == '>' && s.inBlock then s.readBlock true
    else if s.atPlain then s.readPlain
    else .error .malformed

/-- Reads the next token and what belongs to it. -/
def step (s : Scanner) : Except Fault Scanner := do
  let s ← (skipToToken (s.cursor.rest.length + 1) s).dropStaleKeys
  (s.unwind s.cursor.column).readToken

/-- Reads the tokens that are left. -/
def run : Nat → Scanner → Scanner
  | 0, s => s.push .streamEnd
  | fuel + 1, s =>
    match s.step with
    | .error fault => s.push (.broken fault)
    | .ok s' => if s'.slots.back? == some [.streamEnd] then s' else run fuel s'

end Scanner

/-- The document without a byte order mark in front. -/
def withoutMark : Text → Text
  | c :: r => if c.toNat == 0xfeff then r else c :: r
  | [] => []

/-- The tokens of a document. -/
def tokens (document : Text) : List Token :=
  if document.all isAllowed then
    (Scanner.run (document.length + 2) (Scanner.start (withoutMark document))).slots.toList.flatten
  else [.broken .malformed]

end Stencil.Yaml
