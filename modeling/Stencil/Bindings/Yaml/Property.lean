import Stencil.Bindings.Json
import Stencil.Bindings.Yaml.Scalar
import Stencil.Encoding.Utf8
import Stencil.Text.Letter

/-!
# Properties and directives of YAML

Reads what stands in front of a node, its anchor and its tag, and what stands in front of a document, its
directives.
-/

namespace Stencil.Yaml

/-- Letters, digits, the hyphen and the underscore. -/
def isNameChar (c : Char) : Bool :=
  Text.isAsciiLetter c || Text.isAsciiDigit c || c == '-' || c == '_'

/-- Further characters of a tag. -/
def tagMarks : Text := "-;/?:@&=+$,_.!~*'()[]".toList

/-- Whether a tag may hold a character as it is. -/
def isTagChar (c : Char) : Bool :=
  Text.isAsciiLetter c || Text.isAsciiDigit c || tagMarks.contains c

/-- A name that has at least one character. -/
def name (c : Cursor) : Except Fault (String × Cursor) :=
  match c.span isNameChar with
  | ([], _) => .error .malformed
  | (t, c') => .ok (String.ofList t, c')

/-- The name of an anchor or of an alias; the cursor stands on its mark. -/
def anchorName (c : Cursor) : Except Fault (String × Cursor) := do
  let (n, c') ← name c.next
  if endsMark c'.peek || "?:,]\x7d%@`".toList.contains c'.peek then return (n, c')
  else throw .malformed

/-- The bytes that percent signs with two hexadecimal digits give, and the number of characters read. -/
def percentBytes : Text → Except Fault (Bytes × Nat)
  | '%' :: a :: b :: r =>
    match Json.hexValue? a, Json.hexValue? b with
    | some x, some y => do
      let (rest, n) ← percentBytes r
      return (UInt8.ofNat (16 * x + y) :: rest, n + 3)
    | _, _ => .error .malformed
  | '%' :: _ => .error .malformed
  | _ => .ok ([], 0)

/-- The characters of a tag, of which there may be none. -/
def tagText : Nat → Cursor → Text → Except Fault (Text × Cursor)
  | 0, c, acc => .ok (acc, c)
  | fuel + 1, c, acc =>
    if c.peek == '%' then
      match percentBytes c.rest with
      | .error fault => .error fault
      | .ok (bytes, n) =>
        match Utf8.decode bytes with
        | .ok t => tagText fuel (c.drop n) (acc ++ t)
        | .error _ => .error .malformed
    else if isTagChar c.peek then tagText fuel c.next (acc ++ [c.peek])
    else .ok (acc, c)

/-- The characters of a tag, of which there is at least one sequence. -/
def tagUri (c : Cursor) : Except Fault (String × Cursor) := do
  let (t, c') ← tagText (c.rest.length + 1) c []
  if c'.index = c.index then throw .malformed
  return (String.ofList t, c')

/-- The handle of a tag: exclamation marks at its ends, or a single one in front of a space. -/
def tagHandle (c : Cursor) : Except Fault (String × Cursor) := do
  if c.peek != '!' then throw .malformed
  if c.next.peek == ' ' then return ("!", c.next)
  let (t, c') := c.next.span isNameChar
  if c'.peek != '!' then throw .malformed
  return (String.ofList ('!' :: t ++ ['!']), c'.next)

/-- Whether the tag ahead has a handle with two exclamation marks. -/
def hasLongHandle (c : Cursor) : Bool :=
  (c.next.rest.takeWhile fun ch => !endsWord ch).contains '!'

/-- A tag; the cursor stands on its exclamation mark. -/
def tag (c : Cursor) : Except Fault (Token × Cursor) := do
  let following := c.next.peek
  let (token, c') ←
    if following == '<' then do
      let (suffix, c') ← tagUri (c.drop 2)
      if c'.peek != '>' then throw .malformed
      pure (Token.tag none suffix, c'.next)
    else if endsMark following then pure (Token.tag none "!", c.next)
    else do
      let (handle, c') ← if hasLongHandle c then tagHandle c else pure ("!", c.next)
      let (suffix, c') ← tagUri c'
      pure (Token.tag (some handle) suffix, c')
  if endsWord c'.peek then return (token, c') else throw .malformed

/-- A number in a directive. -/
def number (c : Cursor) : Except Fault (Nat × Cursor) :=
  match c.span Text.isAsciiDigit with
  | ([], _) => .error .malformed
  | (t, c') => .ok (Decimal.ofDigits t, c')

/-- The version that a directive gives. -/
def version (c : Cursor) : Except Fault (Directive × Cursor) := do
  let (major, c) ← number c.skipSpaces
  if c.peek != '.' then throw .malformed
  let (minor, c) ← number c.next
  if endsWord c.peek then return (.version major minor, c) else throw .malformed

/-- The handle and what it stands for that a directive gives. -/
def tagPrefix (c : Cursor) : Except Fault (Directive × Cursor) := do
  let (handle, c) ← tagHandle c.skipSpaces
  if c.peek != ' ' then throw .malformed
  let (mark, c) ← tagUri c.skipSpaces
  if endsWord c.peek then return (.tagPrefix handle mark, c) else throw .malformed

/-- A directive; the cursor stands on its percent sign. -/
def directive (c : Cursor) : Except Fault (Directive × Cursor) := do
  let (n, c) ← name c.next
  if !endsWord c.peek then throw .malformed
  let (d, c) ←
    if n = "YAML" then version c
    else if n = "TAG" then tagPrefix c
    else pure (Directive.reserved, c.skip fun ch => !endsLine ch)
  return (d, ← restOfLine c)

end Stencil.Yaml
