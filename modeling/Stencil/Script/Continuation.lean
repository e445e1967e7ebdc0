import Stencil.Text.Basic

/-!
# Lines that continue a logical line

A statement may span several lines: within brackets, within a string that spans lines, and behind a
backslash at a line end. This module reads a script line by line, keeping only what decides where
logical lines begin and end: brackets, quotes, backslashes, comments and indentation. What stands in
between is passed over, whatever it is. A text that ends within a bracket or a string, or whose
indentation fits no enclosing one, has no continuation lines.
-/

namespace Stencil.Script

/-- A string that is open at the end of a line, and the line on which it starts. -/
structure OpenString where
  quote : Char
  triple : Bool
  row : Nat
  deriving Repr, DecidableEq

/-- What is known between two lines: the number of the next line, how many brackets are open, whether
a backslash ended the line before, the open string, whether an open string needs a backslash at each
line end, the enclosing indentations, the line on which the current logical line starts, and the pairs
of first and last lines of the logical lines so far, the last first. -/
structure RowState where
  row : Nat
  depth : Int
  continued : Bool
  open? : Option OpenString
  needsBackslash : Bool
  indents : List Nat
  start? : Option Nat
  spans : List (Nat × Nat)
  deriving Repr, DecidableEq

namespace RowState

/-- The state before the first line. -/
def start : RowState := ⟨1, 0, false, none, false, [0], none, []⟩

/-- Something that is part of a logical line was seen on the given line. -/
def mark (s : RowState) (row : Nat) : RowState :=
  match s.start? with
  | some _ => s
  | none => { s with start? := some row }

/-- A logical line ends on the given line. -/
def close (s : RowState) (row : Nat) : RowState :=
  { s with start? := none, spans := (s.start?.getD row, row) :: s.spans }

end RowState

/-- The text behind the end of a string, if the string ends in the given text. -/
def stringEnd? (q : Char) (triple : Bool) : Text → Option Text
  | [] => none
  | '\\' :: c :: r => if c = '\n' then none else stringEnd? q triple r
  | c :: r =>
    if c = q then
      if triple then
        if [q, q].isPrefixOf r then some (r.drop 2) else stringEnd? q triple r
      else some r
    else if c = '\\' then none
    else stringEnd? q triple r

/-- How a string in single quotes goes on behind its quote on the same line. -/
inductive LineString where
  /-- It ends before the given text. -/
  | ends (rest : Text)
  /-- A backslash at the line end continues it. -/
  | continues
  /-- Neither, so that the quote stands alone. -/
  | broken
  deriving Repr, DecidableEq

/-- Looks for the end of a string in single quotes on its line. -/
def lineString (q : Char) : Text → LineString
  | [] => .broken
  | ['\\', '\n'] => .continues
  | ['\\', '\r', '\n'] => .continues
  | '\\' :: c :: r => if c = '\n' then .broken else lineString q r
  | c :: r => if c = q then .ends r else if c = '\n' || c = '\\' then .broken else lineString q r

/-- The gaps between the parts of a line. -/
def isRowGap (c : Char) : Bool :=
  c == ' ' || c == '\t' || c == '\x0c'

/-- Whether a character is a quote. -/
def isRowQuote (c : Char) : Bool :=
  c == Char.ofNat 34 || c == Char.ofNat 39

/-- Reads the rest of a line. The fuel is the length of the line. -/
def scanRow : Nat → RowState → Text → RowState
  | 0, s, _ => s
  | fuel + 1, s, t =>
    match t.dropWhile isRowGap with
    | [] => s
    | '\\' :: '\n' :: _ => { s with continued := true }
    | '\\' :: '\r' :: '\n' :: _ => { s with continued := true }
    | '\n' :: _ | '\r' :: '\n' :: _ => if 0 < s.depth then s else s.close s.row
    | '#' :: r => scanRow fuel s (r.dropWhile fun c => c ≠ '\n' && c ≠ '\r')
    | c :: r =>
      if isRowQuote c then
        if [c, c].isPrefixOf r then
          match stringEnd? c true (r.drop 2) with
          | some rest => scanRow fuel (s.mark s.row) rest
          | none => { s.mark s.row with open? := some ⟨c, true, s.row⟩ }
        else
          match lineString c r with
          | .ends rest => scanRow fuel (s.mark s.row) rest
          | .continues =>
            { s.mark s.row with open? := some ⟨c, false, s.row⟩, needsBackslash := true }
          | .broken => scanRow fuel (s.mark s.row) r
      else
        let depth :=
          if c = '(' || c = '[' || c = '{' then s.depth + 1
          else if c = ')' || c = ']' || c = '}' then s.depth - 1
          else s.depth
        scanRow fuel { s.mark s.row with depth } r

/-- The column behind the gaps at the start of a line, and the rest of the line. -/
def rowColumn (column : Nat) : Text → Nat × Text
  | ' ' :: r => rowColumn (column + 1) r
  | '\t' :: r => rowColumn ((column / 8 + 1) * 8) r
  | '\x0c' :: r => rowColumn 0 r
  | r => (column, r)

/-- The enclosing indentations of a line that starts in a column, if the column fits. -/
def enclosing? (column : Nat) (indents : List Nat) : Option (List Nat) :=
  match indents with
  | [] => none
  | i :: _ =>
    if i < column then some (column :: indents)
    else if indents.contains column then some (indents.dropWhile (column < ·))
    else none

/-- What comes after a line: the next line, the end of the script, or a fault. -/
inductive RowResult where
  | next (s : RowState)
  | ended (s : RowState)
  | fault

/-- Reads one line, with its line break. -/
def readRow (s : RowState) (t : Text) : RowResult :=
  let following (s : RowState) : RowResult := .next { s with row := s.row + 1 }
  match s.open? with
  | some o =>
    match stringEnd? o.quote o.triple t with
    | some rest =>
      following (scanRow (t.length + 1)
        { s.mark o.row with open? := none, needsBackslash := false } rest)
    | none =>
      if s.needsBackslash && !Text.endsWith t ['\\', '\n'] && !Text.endsWith t ['\\', '\r', '\n'] then
        following { s.mark o.row with open? := none }
      else following s
  | none =>
    if s.depth = 0 && !s.continued then
      let (column, rest) := rowColumn 0 t
      match rest with
      | [] => .ended s
      | c :: _ =>
        if c = '#' || c = '\r' || c = '\n' then following s
        else
          match enclosing? column s.indents with
          | some indents => following (scanRow (t.length + 1) { s with indents } rest)
          | none => .fault
    else following (scanRow (t.length + 1) { s with continued := false } t)

/-- The lines of a text, each with its line break. -/
def rowsOf (t : Text) : List Text :=
  let ls := Text.lines t
  let full := ls.dropLast.map (· ++ ['\n'])
  match ls.getLast? with
  | some [] | none => full
  | some l => full ++ [l]

/-- The end of the script behind its last line. A last line without a line break ends its logical line,
unless it is a comment. -/
def endRows (s : RowState) (last : Text) : Option RowState :=
  if s.open?.isSome || s.depth ≠ 0 || s.continued then none
  else
    let bare := match last.getLast? with
      | some c => c ≠ '\n' && c ≠ '\r'
      | none => false
    if bare && (Text.trim last).head? ≠ some '#' then some (s.close (s.row - 1)) else some s

/-- Reads the lines one by one. -/
def readRows (s : RowState) (last : Text) : List Text → Option RowState
  | [] => endRows s last
  | t :: rest =>
    match readRow s t with
    | .next s' => readRows s' t rest
    | .ended s' => some s'
    | .fault => none

/-- The zero-based numbers of the lines that continue a logical line, in ascending order. -/
def continuationLines (code : Text) : List Nat :=
  match readRows RowState.start [] (rowsOf code) with
  | some s => s.spans.reverse.flatMap fun (first, last) => List.range' first (last - first)
  | none => []

end Stencil.Script
