import Stencil.Bindings.Json
import Stencil.Bindings.Yaml.Token

/-!
# Scalars of YAML

Reads the text of a scalar: plain, between quotes, or as a block of lines. Line breaks inside a scalar
are folded: one becomes a space, and of several the first is dropped.
-/

namespace Stencil.Yaml

/-- The text that a folded line break stands for, with the line breaks that follow it. -/
def folded (lineBreak breaks : Text) : Text :=
  if lineBreak ≠ ['\n'] then lineBreak ++ breaks
  else if breaks.isEmpty then [' ']
  else breaks

/-! ## Plain scalars -/

/-- Whether a plain scalar goes on with a character that is followed by another. -/
def continuesPlain (inFlow : Bool) (c after : Char) : Bool :=
  !(endsMark c || (c == ':' && (endsMark after || (inFlow && [',', '[', ']', '\x7b', '\x7d'].contains after))) ||
    (inFlow && [',', '?', '[', ']', '\x7b', '\x7d'].contains c))

/-- The characters of a plain scalar up to the next gap. -/
def plainWord (inFlow : Bool) : Text → Text
  | [] => []
  | c :: r => if continuesPlain inFlow c (r.headD ending) then c :: plainWord inFlow r else []

/-- The line breaks between the lines of a plain scalar, or nothing if the document ends between them. -/
def plainBreaks : Nat → Cursor → Text → Option (Text × Cursor)
  | 0, c, acc => some (acc, c)
  | fuel + 1, c, acc =>
    if c.peek == ' ' then plainBreaks fuel c.next acc
    else if isBreak c.peek then
      let (b, c') := c.lineBreak
      if c'.atDocumentMark then none else plainBreaks fuel c' (acc ++ b)
    else some (acc, c)

/-- A gap in a plain scalar: what it stands for, the cursor behind it, and whether it breaks the line. It
stands for nothing if the scalar ends there. -/
def plainGap (c : Cursor) : Text × Cursor × Bool :=
  let (spaces, c') := c.span (· == ' ')
  if isBreak c'.peek then
    let (b, c'') := c'.lineBreak
    if c''.atDocumentMark then ([], c'', true)
    else
      match plainBreaks (c''.rest.length + 1) c'' [] with
      | none => ([], c'', true)
      | some (breaks, c''') => (folded b breaks, c''', true)
  else (spaces, c', false)

/-- Reads a plain scalar whose lines have at least the given column. The result says whether the scalar
was followed by a line break. -/
def plainScalar (inFlow : Bool) (column : Int) :
    Nat → Cursor → Text → Text → Bool → Text × Cursor × Bool
  | 0, c, acc, _, broke => (acc, c, broke)
  | fuel + 1, c, acc, gap, broke =>
    if c.peek == '#' then (acc, c, broke)
    else
      let word := plainWord inFlow c.rest
      if word.isEmpty then (acc, c, broke)
      else
        let acc := acc ++ gap ++ word
        let (gap, c', broke) := plainGap (c.drop word.length)
        if gap.isEmpty || c'.peek == '#' || (!inFlow && (c'.column : Int) < column) then
          (acc, c', broke)
        else plainScalar inFlow column fuel c' acc gap broke

/-! ## Quoted scalars -/

/-- The character that a letter behind a backslash stands for. -/
def escaped? : Char → Option Char
  | '0' => some (Char.ofNat 0)
  | 'a' => some (Char.ofNat 7)
  | 'b' => some (Char.ofNat 8)
  | 't' => some '\t'
  | '\t' => some '\t'
  | 'n' => some '\n'
  | 'v' => some (Char.ofNat 11)
  | 'f' => some (Char.ofNat 12)
  | 'r' => some '\r'
  | 'e' => some (Char.ofNat 27)
  | ' ' => some ' '
  | '"' => some '"'
  | '\\' => some '\\'
  | '/' => some '/'
  | 'N' => some (Char.ofNat 0x85)
  | '_' => some (Char.ofNat 0xa0)
  | 'L' => some (Char.ofNat 0x2028)
  | 'P' => some (Char.ofNat 0x2029)
  | _ => none

/-- The number of digits of the code that a letter behind a backslash announces. -/
def codeWidth? : Char → Option Nat
  | 'x' => some 2
  | 'u' => some 4
  | 'U' => some 8
  | _ => none

/-- The character of a code of a number of digits at the beginning of a text. -/
def codeChar (width : Nat) (t : Text) : Except Fault Char := do
  let digits := t.take width
  if digits.length < width then throw .malformed
  match Json.hexNumber? digits with
  | none => throw .malformed
  | some n =>
    if 0x7fffffff < n then throw .codeTooLarge
    else if 0x10ffff < n then throw .codeOutOfRange
    else return Json.charOf n

/-- The line breaks between the lines of a quoted scalar. No document may begin or end there. -/
def quotedBreaks : Nat → Cursor → Text → Except Fault (Text × Cursor)
  | 0, c, acc => .ok (acc, c)
  | fuel + 1, c, acc =>
    if c.atDocumentMark then .error .malformed
    else
      let c' := c.skip isGap
      if isBreak c'.peek then
        let (b, c'') := c'.lineBreak
        quotedBreaks fuel c'' (acc ++ b)
      else .ok (acc, c')

/-- Reads a quoted scalar whose opening mark has been read. -/
def quotedScalar (double : Bool) : Nat → Cursor → Text → Except Fault (Text × Cursor)
  | 0, _, _ => .error .malformed
  | fuel + 1, c, acc =>
    match c.rest with
    | [] => .error .malformed
    | '\'' :: r =>
      if double then quotedScalar double fuel c.next (acc ++ ['\''])
      else if r.head? == some '\'' then quotedScalar double fuel (c.drop 2) (acc ++ ['\''])
      else .ok (acc, c.next)
    | '"' :: _ =>
      if double then .ok (acc, c.next) else quotedScalar double fuel c.next (acc ++ ['"'])
    | '\\' :: r =>
      if !double then quotedScalar double fuel c.next (acc ++ ['\\'])
      else
        match r with
        | [] => .error .malformed
        | e :: t =>
          match escaped? e, codeWidth? e with
          | some ch, _ => quotedScalar double fuel (c.drop 2) (acc ++ [ch])
          | none, some width =>
            match codeChar width t with
            | .ok ch => quotedScalar double fuel (c.drop (2 + width)) (acc ++ [ch])
            | .error fault => .error fault
          | none, none =>
            if isBreak e then
              match quotedBreaks (t.length + 1) c.next.lineBreak.2 [] with
              | .ok (breaks, c') => quotedScalar double fuel c' (acc ++ breaks)
              | .error fault => .error fault
            else .error .malformed
    | ch :: _ =>
      if isGap ch || isBreak ch then
        let (gap, c') := c.span isGap
        if c'.rest.isEmpty then .error .malformed
        else if isBreak c'.peek then
          let (b, c'') := c'.lineBreak
          match quotedBreaks (c''.rest.length + 1) c'' [] with
          | .ok (breaks, c''') => quotedScalar double fuel c''' (acc ++ folded b breaks)
          | .error fault => .error fault
        else quotedScalar double fuel c' (acc ++ gap)
      else
        let word := c.rest.takeWhile fun ch =>
          ch != '\'' && ch != '"' && ch != '\\' && !isGap ch && !isBreak ch
        quotedScalar double fuel (c.drop word.length) (acc ++ word)

/-! ## Block scalars -/

/-- What happens to the line breaks at the end of a block: one is kept, all are, or none is. -/
inductive Chomping where
  | clip
  | keep
  | strip
  deriving Repr, DecidableEq

/-- The chomping that a character announces. -/
def chompingOf? : Char → Option Chomping
  | '+' => some .keep
  | '-' => some .strip
  | _ => none

/-- The digit of a character. -/
def digitOf? (c : Char) : Option Nat :=
  if '0' ≤ c && c ≤ '9' then some (c.toNat - 48) else none

/-- The header of a block: its chomping and its indentation, in either order, where they are given. -/
def blockHeader (c : Cursor) : Except Fault (Chomping × Option Nat × Cursor) := do
  let (chomping, increment, c') := match chompingOf? c.peek with
    | some k =>
      match digitOf? c.next.peek with
      | some n => (k, some n, c.drop 2)
      | none => (k, none, c.next)
    | none =>
      match digitOf? c.peek with
      | some n =>
        match chompingOf? c.next.peek with
        | some k => (k, some n, c.drop 2)
        | none => (.clip, some n, c.next)
      | none => (.clip, none, c)
  if increment = some 0 || !endsWord c'.peek then throw .malformed
  return (chomping, increment, c')

/-- The cursor in the line behind a header, where only a comment may follow. -/
def restOfLine (c : Cursor) : Except Fault Cursor := do
  let c := c.skipSpaces
  let c := if c.peek == '#' then c.skip fun ch => !endsLine ch else c
  if endsLine c.peek then return c.lineBreak.2 else throw .malformed

/-- The empty lines at the beginning of a block, and the greatest column reached in them. -/
def leadingLines : Nat → Cursor → Text → Nat → Text × Nat × Cursor
  | 0, c, acc, greatest => (acc, greatest, c)
  | fuel + 1, c, acc, greatest =>
    if c.peek == ' ' then leadingLines fuel c.next acc (max greatest c.next.column)
    else if isBreak c.peek then
      let (b, c') := c.lineBreak
      leadingLines fuel c' (acc ++ b) greatest
    else (acc, greatest, c)

/-- The empty lines in front of a line with an indentation. -/
def emptyLines (indent : Nat) : Nat → Cursor → Text → Text × Cursor
  | 0, c, acc => (acc, c)
  | fuel + 1, c, acc =>
    let c := c.skipIndent (indent - c.column)
    if isBreak c.peek then
      let (b, c') := c.lineBreak
      emptyLines indent fuel c' (acc ++ b)
    else (acc, c)

/-- The lines of a block with an indentation. The result is the text, the last line break and the line
breaks behind it. -/
def blockLines (fold : Bool) (indent : Nat) :
    Nat → Cursor → Text → Text → Text → Text × Text × Text × Cursor
  | 0, c, acc, last, breaks => (acc, last, breaks, c)
  | fuel + 1, c, acc, last, breaks =>
    if c.column = indent && c.peek != ending then
      let dense := !isGap c.peek
      let (content, c') := c.span fun ch => !endsLine ch
      let acc := acc ++ breaks ++ content
      let (last, c') := c'.lineBreak
      let (breaks, c') := emptyLines indent (c'.rest.length + 1) c' []
      if c'.column = indent && c'.peek != ending then
        let joined :=
          if fold && last == ['\n'] && dense && !isGap c'.peek then
            if breaks.isEmpty then [' '] else []
          else last
        blockLines fold indent fuel c' (acc ++ joined) last breaks
      else (acc, last, breaks, c')
    else (acc, last, breaks, c)

/-- Reads a block scalar whose mark has been read, inside a block with an indentation. -/
def blockScalar (fold : Bool) (parent : Int) (c : Cursor) : Except Fault (Text × Cursor) := do
  let (chomping, increment, c) ← blockHeader c
  let c ← restOfLine c
  let least := (max (parent + 1) 1).toNat
  let (indent, breaks, c) := match increment with
    | some n =>
      let indent := least + n - 1
      let (breaks, c) := emptyLines indent (c.rest.length + 1) c []
      (indent, breaks, c)
    | none =>
      let (breaks, greatest, c) := leadingLines (c.rest.length + 1) c [] 0
      (max least greatest, breaks, c)
  let (content, last, breaks, c) := blockLines fold indent (c.rest.length + 1) c [] [] breaks
  return match chomping with
    | .clip => (content ++ last, c)
    | .keep => (content ++ last ++ breaks, c)
    | .strip => (content, c)

end Stencil.Yaml
