import Stencil.Segment.Basic

/-!
# Scanning a template into segments

The scan looks for the first `<%` that a `%>` follows. Text before it is literal, less the gaps that
indent the directive when nothing else precedes it on its line. The mark, the body and the rest of the
line are then read off, and the scan goes on behind them. Without another directive the rest is
literal.
-/

namespace Stencil.Segment

/-- What opens a directive. -/
def openMark : Text := ['<', '%']

/-- What closes a directive. -/
def closeMark : Text := ['%', '>']

/-- Reads the longest mark that selects a kind. -/
def takeKind : Text → DirectiveKind × Text
  | '=' :: '=' :: r => (.rawExpr, r)
  | '=' :: r => (.escapedExpr, r)
  | '#' :: r => (.comment, r)
  | r => (.statement, r)

/-- A text without one space in front. -/
def dropSpace : Text → Text
  | ' ' :: r => r
  | r => r

/-- A text without one space at its end. -/
def dropEndSpace (t : Text) : Text :=
  if t.getLast? = some ' ' then t.dropLast else t

/-- The code of a directive with the given body. -/
def codeOf (body : Text) : Text :=
  dropEndSpace (dropSpace body)

/-- The gaps and the line break at the start of a text, if gaps and a line break are what it starts
with. -/
def lineEnd? (t : Text) : Option Text :=
  let gap := t.takeWhile Text.isGap
  match t.drop gap.length with
  | '\n' :: _ => some (gap ++ ['\n'])
  | '\r' :: '\n' :: _ => some (gap ++ ['\r', '\n'])
  | _ => none

/-- The part of a text behind its last line break. -/
def lastLine (t : Text) : Text :=
  (t.reverse.takeWhile (· ≠ '\n')).reverse

/-- The indentation that ends a text before a directive: the text behind the last line break when it
holds only gaps. Without a line break the text has to begin at the start of a line. -/
def indentation? (atLineStart : Bool) (before : Text) : Option Text :=
  let line := lastLine before
  if line.all Text.isGap && (atLineStart || before.contains '\n') then some line else none

/-- A directive found in a text: the literal text before it, its parts, and the text behind it. -/
structure Found where
  before : Text
  kind : DirectiveKind
  body : Text
  lspace : Option Text
  rspace : Option Text
  rest : Text

/-- The first directive of a text. -/
def find? (atLineStart : Bool) (t : Text) : Option Found := do
  let (before, opened) ← Text.cutAt? openMark t
  let (kind, marked) := takeKind opened
  let (body, after) ← Text.cutAt? closeMark marked
  let lspace := indentation? atLineStart before
  let rspace := lineEnd? after
  return {
    before := before.take (before.length - (lspace.getD []).length)
    kind, body, lspace, rspace
    rest := after.drop (rspace.getD []).length }

/-- The number of line breaks within a directive, its white space included. -/
def Found.breaks (f : Found) : Nat :=
  Text.breaks f.body + Text.breaks (f.rspace.getD [])

/-- The segments of a text that starts on the given line. The fuel bounds the number of directives. -/
def scanFrom : Nat → Bool → Int → Text → List Segment
  | 0, _, _, _ => []
  | fuel + 1, atLineStart, line, t =>
    match find? atLineStart t with
    | none => if t.isEmpty then [] else [.literal t line]
    | some f =>
      let start := line + Text.breaks f.before
      let found := .directive ⟨f.kind, codeOf f.body, f.lspace, f.rspace, start⟩
      let rest := scanFrom fuel f.rspace.isSome (start + f.breaks) f.rest
      if f.before.isEmpty then found :: rest else .literal f.before line :: found :: rest

/-- The segments of a template whose first line has the given number. Each directive takes up at least
four characters, so the length of the text is fuel enough. -/
def scan (source : Text) (line : Int) : List Segment :=
  scanFrom (source.length + 1) true line source

end Stencil.Segment
