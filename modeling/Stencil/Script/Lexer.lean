import Stencil.Script.Token
import Stencil.Text.Letter
import Stencil.Decimal.Notation

/-!
# Splitting a script into tokens

The lexer works from the front of the text. At the start of a line outside brackets it compares the
indentation with the enclosing ones and emits `indent` and `dedent`; lines without tokens are skipped.
Elsewhere it skips gaps and reads one token by its first character.
-/

namespace Stencil.Script

open Text (isAsciiDigit isAsciiLetter)

/-- How far the lexer has come: the text ahead, its line, whether a line starts there, the columns of
the enclosing indentations measured with wide and with narrow tabs, and the open brackets. -/
structure LexState where
  rest : Text
  line : Nat
  fresh : Bool
  columns : List (Nat × Nat)
  opens : List (Char × Nat)

/-- The fault of a cause at a place. -/
def LexState.fault (s : LexState) (cause : LexCause) (line : Nat) : List Token :=
  [⟨.fault ⟨cause, line, s.opens.head?.map (·.2)⟩, line, line, s.opens.length⟩]

/-- Characters that may belong to a name, before non-ASCII ones are looked up. -/
def isNameLike (c : Char) : Bool :=
  isAsciiLetter c || isAsciiDigit c || c == '_' || 0x80 ≤ c.toNat

/-- Whether a word is a name: ASCII words always are, other characters must be letters or marks. -/
def isName (w : Text) : Bool :=
  match w with
  | [] => false
  | c :: r => Text.isNameStart c && r.all Text.isNameRest

/-! ## Numbers -/

/-- Digits of a kind with single underscores in front of some of them. -/
def digitRun (p : Char → Bool) : Text → Text × Text
  | '_' :: c :: r =>
    if p c then
      let (ds, rest) := digitRun p r
      (c :: ds, rest)
    else ([], '_' :: c :: r)
  | c :: r =>
    if p c then
      let (ds, rest) := digitRun p r
      (c :: ds, rest)
    else ([], c :: r)
  | [] => ([], [])

/-- Whether a word that may follow a number directly starts here. -/
def wordFollows (t : Text) : Bool :=
  let whole (w : String) : Bool :=
    w.toList.isPrefixOf t && !((t.drop w.length).head?.any isNameLike)
  whole "and" || whole "else" || whole "for" || whole "or" || whole "not" ||
    "if".toList.isPrefixOf t || "in".toList.isPrefixOf t || "is".toList.isPrefixOf t

/-- Whether a number may end before this text. -/
def numberEnds (t : Text) : Bool :=
  wordFollows t || !(t.head?.any isNameLike)

/-- The value of digits in a base of at most sixteen. -/
def baseValue (base : Nat) (ds : Text) : Nat :=
  ds.foldl (fun n c =>
    let d := c.toNat
    base * n + (if d ≤ 0x39 then d - 0x30 else if d ≤ 0x46 then d - 0x37 else d - 0x57)) 0

/-- An integer behind a mark such as `0x`. -/
def basedInteger (base : Nat) (p : Char → Bool) (t : Text) : Option (Numeric × Text) :=
  let (ds, rest) := digitRun p t
  if ds.isEmpty || rest.head? == some '_' || rest.head?.any isAsciiDigit || !numberEnds rest then none
  else some (.int (baseValue base ds), rest)

/-- The digits of an exponent behind its `e`. Without digits it is no exponent; a sign without digits
is an error. -/
def exponentPart (t : Text) : Option (Option Int × Text) :=
  match t with
  | e :: r =>
    if e = 'e' || e = 'E' then
      let (sign, body) := match r with
        | '+' :: b => (some false, b)
        | '-' :: b => (some true, b)
        | b => (none, b)
      if body.head?.any isAsciiDigit then
        let (ds, rest) := digitRun isAsciiDigit body
        let n : Int := Decimal.ofDigits ds
        if rest.head? == some '_' then none
        else some (some (if sign == some true then -n else n), rest)
      else if sign.isSome then none
      else some (none, t)
    else some (none, t)
  | [] => some (none, t)

/-- The rest of a number behind its whole digits: fraction, exponent and the mark of an imaginary
number. -/
def decimalTail (whole : Text) (t : Text) : Option (Numeric × Text) := do
  let (fraction, afterFraction) ← match t with
    | '.' :: r =>
      if r.head?.any isAsciiDigit then
        let (ds, rest) := digitRun isAsciiDigit r
        if rest.head? == some '_' then none else some (some ds, rest)
      else some (some [], r)
    | r => some (none, r)
  let (power, rest) ← exponentPart afterFraction
  let numeral : Decimal.Numeral := ⟨whole, fraction, power⟩
  match rest with
  | 'j' :: r | 'J' :: r =>
    if numberEnds r then some (.imaginary (numeral.value false), r) else none
  | _ =>
    if !numberEnds rest then none
    else if fraction.isSome || power.isSome then some (.float (numeral.value false), rest)
    else if whole.head? == some '0' && whole.any (· ≠ '0') then none
    else if 4300 < whole.length then some (.tooLong, rest)
    else some (.int (Decimal.ofDigits whole), rest)

/-- A number at the start of a text. -/
def lexNumber (t : Text) : Option (Numeric × Text) :=
  match t with
  | '0' :: 'x' :: r | '0' :: 'X' :: r =>
    basedInteger 16 (fun c => isAsciiDigit c || ('a' ≤ c && c ≤ 'f') || ('A' ≤ c && c ≤ 'F')) r
  | '0' :: 'o' :: r | '0' :: 'O' :: r => basedInteger 8 (fun c => '0' ≤ c && c ≤ '7') r
  | '0' :: 'b' :: r | '0' :: 'B' :: r => basedInteger 2 (fun c => c == '0' || c == '1') r
  | _ =>
    let (whole, rest) := digitRun isAsciiDigit t
    if rest.head? == some '_' && !whole.isEmpty then none else decimalTail whole rest

/-! ## Strings -/

/-- The text of a string literal up to its closing quotes, and what follows them. A backslash keeps the
next character from closing it. -/
def stringBody (q : Char) (triple : Bool) : Text → Option (Text × Text)
  | [] => none
  | ['\\'] => none
  | '\\' :: c :: r => (stringBody q triple r).map fun (body, rest) => ('\\' :: c :: body, rest)
  | c :: r =>
    if triple then
      if c = q && [q, q].isPrefixOf r then some ([], r.drop 2)
      else (stringBody q triple r).map fun (body, rest) => (c :: body, rest)
    else if c = q then some ([], r)
    else if c = '\n' then none
    else (stringBody q triple r).map fun (body, rest) => (c :: body, rest)

/-- Whether a character is one of the two quotes. -/
def isQuote (c : Char) : Bool :=
  c == Char.ofNat 34 || c == Char.ofNat 39

/-- The letters that may stand in front of a string literal, in any case and order. -/
def isStringMark (w : Text) : Bool :=
  let low := w.map Char.toLower
  low == [] || low == ['r'] || low == ['u'] || low == ['b'] || low == ['f'] || low == ['b', 'r'] ||
    low == ['r', 'b'] || low == ['f', 'r'] || low == ['r', 'f']

/-- A string literal behind its letters; the text starts at the opening quote. -/
def lexString (marks : Text) (q : Char) (t : Text) : Option (StringLit × Text) × Bool :=
  let low := marks.map Char.toLower
  let make (r : Text × Text) : StringLit × Text :=
    (⟨low.contains 'r', low.contains 'b', low.contains 'f', r.1⟩, r.2)
  match t.drop 1 with
  | a :: b :: r =>
    if a = q && b = q then ((stringBody q true r).map make, true)
    else ((stringBody q false (a :: b :: r)).map make, false)
  | r => ((stringBody q false r).map make, false)

/-! ## Marks -/

/-- The marks of three characters. -/
def marks3 : List String := ["**=", "//=", ">>=", "<<=", "..."]

/-- The marks of two characters. -/
def marks2 : List String :=
  ["!=", "%=", "&=", "**", "*=", "+=", "-=", "->", "//", "/=", ":=", "<<", "<=", "<>", "==", ">=",
   ">>", "@=", "^=", "|="]

/-- The marks of one character. -/
def marks1 : List Char :=
  ['%', '&', '(', ')', '*', '+', ',', '-', '.', '/', ':', ';', '<', '=', '>', '@', '[', ']', '^',
   '{', '|', '}', '~']

/-- The longest mark at the start of a text. -/
def lexMark (t : Text) : Option (String × Text) :=
  match marks3.find? fun m => m.toList.isPrefixOf t with
  | some m => some (m, t.drop 3)
  | none =>
    match marks2.find? fun m => m.toList.isPrefixOf t with
    | some m => some (m, t.drop 2)
    | none =>
      match t with
      | c :: r => if marks1.contains c then some (String.ofList [c], r) else none
      | [] => none

/-- The bracket that an opening bracket is closed by. -/
def closerOf : Char → Char
  | '(' => ')'
  | '[' => ']'
  | _ => '}'

/-! ## Indentation -/

/-- Measures the indentation at the start of a line. A tab advances to the next multiple of eight, or
by one in the narrow measure. The first backslash at a line end fixes the column. -/
def measure (wide narrow fixed line : Nat) : Text → Except (LexCause × Nat) (Nat × Nat × Nat × Text)
  | ' ' :: r => measure (wide + 1) (narrow + 1) fixed line r
  | '\t' :: r => measure ((wide / 8 + 1) * 8) (narrow + 1) fixed line r
  | '\x0c' :: r => measure 0 0 fixed line r
  | ['\\', '\n'] => .error (.endInContinuation, line)
  | '\\' :: '\n' :: r => measure wide narrow (if fixed = 0 then wide else fixed) (line + 1) r
  | '\\' :: _ => .error (.strayContinuation, line)
  | r =>
    if fixed = 0 then .ok (wide, narrow, line, r) else .ok (fixed, fixed, line, r)

/-- The most enclosing indentations. -/
def maxIndents : Nat := 100

/-- The most open brackets. -/
def maxOpen : Nat := 200

/-- Compares a new indentation with the enclosing ones, the innermost first: how many blocks end, whether
one begins, and the enclosing indentations from there on. -/
def reindent (columns : List (Nat × Nat)) (col narrow : Nat) :
    Except LexCause (Nat × Bool × List (Nat × Nat)) :=
  match columns with
  | [] => .error .inconsistentDedent
  | (c, a) :: outer =>
    if col = c then if narrow = a then .ok (0, false, columns) else .error .inconsistentTabs
    else if c < col then
      if maxIndents ≤ columns.length then .error .tooManyIndents
      else if narrow ≤ a then .error .inconsistentTabs
      else .ok (0, true, (col, narrow) :: columns)
    else
      let kept := (c, a) :: outer |>.dropWhile fun x => col < x.1
      match kept with
      | [] => .error .inconsistentDedent
      | (c', a') :: _ =>
        if col ≠ c' then .error .inconsistentDedent
        else if narrow ≠ a' then .error .inconsistentTabs
        else .ok (columns.length - kept.length, false, kept)

/-- The tokens for blocks that end or begin before a line. -/
def blockTokens (line dedents : Nat) (indents : Bool) : List Token :=
  List.replicate dedents ⟨.dedent, line, line, 0⟩ ++
    if indents then [⟨.indent, line, line, 0⟩] else []

/-! ## Tokens -/

/-- A step of the lexer: tokens and the state behind them, or the last tokens. -/
inductive LexStep where
  | more (tokens : List Token) (state : LexState)
  | last (tokens : List Token)

/-- The end of the text: what is still open is closed, or is at fault if it is a bracket. -/
def LexState.finish (s : LexState) : LexStep :=
  if s.opens.isEmpty then
    .last (blockTokens s.line (s.columns.length - 1) false ++ [⟨.finish, s.line, s.line, 0⟩])
  else .last (s.fault .unclosed s.line)

/-- The start of a line. -/
def LexState.startLine (s : LexState) : LexStep :=
  match measure 0 0 0 s.line s.rest with
  | .error (cause, line) => .last (s.fault cause line)
  | .ok (col, narrow, line, t) =>
    match t with
    | [] => { s with line, rest := [] }.finish
    | c :: _ =>
      if c = '#' || c = '\n' then
        let r := t.dropWhile (· ≠ '\n')
        .more [] { s with line := line + 1, rest := r.drop 1, fresh := true }
      else if !s.opens.isEmpty then .more [] { s with line, rest := t, fresh := false }
      else
        match reindent s.columns col narrow with
        | .error cause => .last (s.fault cause line)
        | .ok (dedents, indents, columns) =>
          .more (blockTokens line dedents indents) { s with line, rest := t, columns, fresh := false }

/-- A step that emits one token on one line. -/
def LexState.emit (s : LexState) (lexeme : Lexeme) (rest : Text) : LexStep :=
  .more [⟨lexeme, s.line, s.line, s.opens.length⟩] { s with rest }

/-- A mark, which opens or closes a bracket where it is one. -/
def LexState.mark (s : LexState) (m : String) (rest : Text) : LexStep :=
  match m.toList with
  | [c] =>
    if c = '(' || c = '[' || c = '{' then
      if maxOpen ≤ s.opens.length then .last (s.fault .tooManyOpen s.line)
      else { s with opens := (c, s.line) :: s.opens }.emit (.op m) rest
    else if c = ')' || c = ']' || c = '}' then
      match s.opens with
      | [] => .last (s.fault .unmatchedClose s.line)
      | (o, _) :: outer =>
        if closerOf o = c then { s with opens := outer }.emit (.op m) rest
        else .last ({ s with opens := outer }.fault .mismatchedClose s.line)
    else s.emit (.op m) rest
  | _ => s.emit (.op m) rest

/-- A string literal whose opening quote starts the text. -/
def LexState.string (s : LexState) (marks : Text) (q : Char) (t : Text) : LexStep :=
  match lexString marks q t with
  | (none, triple) =>
    .last (s.fault (if triple then .unterminatedBlockString else .unterminatedString) s.line)
  | (some (lit, rest), _) =>
    let endLine := s.line + Text.breaks lit.body
    .more [⟨.string lit, s.line, endLine, s.opens.length⟩] { s with rest, line := endLine }

/-- One token at its first character, which is neither a gap nor a line break nor a backslash. -/
def LexState.tokenAt (s : LexState) (c : Char) (r : Text) : LexStep :=
  let t := c :: r
  if isQuote c then s.string [] c t
  else if isAsciiDigit c || (c == '.' && r.head?.any isAsciiDigit) then
    match lexNumber t with
    | some (n, rest) => s.emit (.number n) rest
    | none => .last (s.fault .badNumber s.line)
  else if isNameLike c then
    let w := t.takeWhile isNameLike
    let rest := t.drop w.length
    match rest with
    | q :: _ =>
      if isQuote q && isStringMark w then s.string w q rest
      else if isName w then s.emit (Lexeme.ofWord (String.ofList w)) rest
      else .last (s.fault .badCharacter s.line)
    | [] =>
      if isName w then s.emit (Lexeme.ofWord (String.ofList w)) rest
      else .last (s.fault .badCharacter s.line)
  else
    match lexMark t with
    | some (m, rest) => s.mark m rest
    | none =>
      if c.toNat < 0x20 || c.toNat = 0x7f then .last (s.fault .badCharacter s.line)
      else s.emit (.stray c) r

/-- One token within a line. -/
def LexState.token (s : LexState) : LexStep :=
  let t := s.rest.dropWhile fun c => c == ' ' || c == '\t' || c == '\x0c'
  let t := if t.head? == some '#' then t.dropWhile (· ≠ '\n') else t
  match t with
  | [] => { s with rest := [] }.finish
  | '\n' :: r =>
    let next : LexState := { s with rest := r, line := s.line + 1, fresh := true }
    if s.opens.isEmpty then .more [⟨.newline, s.line, s.line, 0⟩] next else .more [] next
  | ['\\', '\n'] => .last (s.fault .endInContinuation s.line)
  | '\\' :: '\n' :: r => .more [] { s with rest := r, line := s.line + 1 }
  | '\\' :: _ => .last (s.fault .strayContinuation s.line)
  | c :: r => s.tokenAt c r

/-- One step of the lexer. -/
def LexState.step (s : LexState) : LexStep :=
  if s.fresh then s.startLine else s.token

/-- The tokens from a state on. Each step but the start of a line takes up characters, which bounds
the fuel. -/
def lexFrom : Nat → LexState → List Token
  | 0, s => s.fault .endInContinuation s.line
  | fuel + 1, s =>
    match s.step with
    | .more tokens s' => tokens ++ lexFrom fuel s'
    | .last tokens => tokens

/-- Every kind of line break becomes the plain one, and the last line gets one. -/
def unifyBreaks : Text → Text
  | [] => []
  | '\r' :: '\n' :: r => '\n' :: unifyBreaks r
  | '\r' :: r => '\n' :: unifyBreaks r
  | c :: r => c :: unifyBreaks r

/-- A text whose last line ends with a line break. -/
def closeLastLine (t : Text) : Text :=
  if t.isEmpty || t.getLast? == some '\n' then t else t ++ ['\n']

/-- The tokens of a script. -/
def lex (source : Text) : List Token :=
  let t := closeLastLine (unifyBreaks source)
  lexFrom (2 * t.length + 2) ⟨t, 1, true, [(0, 0)], []⟩

/-- The tokens of an expression inside a string literal, whose text starts on the given line. -/
def lexInner (source : Text) (line : Nat) : List Token :=
  let t := closeLastLine (('(' :: source) ++ [')'])
  lexFrom (2 * t.length + 2) ⟨t, line, true, [(0, 0)], []⟩

end Stencil.Script
