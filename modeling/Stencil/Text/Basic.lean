/-!
# Texts, lines and blanks

A text is a list of characters. This module splits texts into lines and joins them again, trims
blanks, removes common indentation, and cuts a text at the first occurrence of a mark. Splitting and
joining are inverse (`joinLines_lines`). Rows end at any of the line boundaries of Unicode, not only at
the plain line break; a carriage return and a line feed together are one boundary.
-/

namespace Stencil

/-- A text is a list of characters, so that facts about it follow by induction on the list. -/
abbrev Text := List Char

namespace Text

/-- Horizontal gaps: the space and the tab. -/
def isGap (c : Char) : Bool :=
  c == ' ' || c == '\t'

/-- Blank characters: ASCII white space, the four information separators, and the Unicode spaces and
line separators. -/
def isBlank (c : Char) : Bool :=
  let n := c.toNat
  (9 ≤ n && n ≤ 13) || (28 ≤ n && n ≤ 32) || n == 0x85 || n == 0xa0 || n == 0x1680 ||
    (0x2000 ≤ n && n ≤ 0x200a) || n == 0x2028 || n == 0x2029 || n == 0x202f || n == 0x205f ||
    n == 0x3000

/-- A text without its leading blanks. -/
def trimStart (t : Text) : Text :=
  t.dropWhile isBlank

/-- A text without its trailing blanks. -/
def trimEnd (t : Text) : Text :=
  (t.reverse.dropWhile isBlank).reverse

/-- A text without its leading and trailing blanks. -/
def trim (t : Text) : Text :=
  trimEnd (trimStart t)

/-- The number of line breaks in a text. -/
def breaks (t : Text) : Nat :=
  t.count '\n'

/-- The lines of a text, which the line break separates; there is one more than line breaks. -/
def lines : Text → List Text
  | [] => [[]]
  | c :: r =>
    if c = '\n' then [] :: lines r
    else match lines r with
      | [] => [[c]]
      | l :: ls => (c :: l) :: ls

/-- Joins lines by line breaks. -/
def joinLines : List Text → Text
  | [] => []
  | [l] => l
  | l :: ls => l ++ '\n' :: joinLines ls

/-- A text has at least one line. -/
theorem lines_ne_nil (t : Text) : lines t ≠ [] := by
  cases t with
  | nil => simp [lines]
  | cons c r =>
    by_cases h : c = '\n'
    · simp [lines, h]
    · cases hr : lines r <;> simp [lines, h, hr]

/-- Joining the lines of a text gives the text back. -/
theorem joinLines_lines (t : Text) : joinLines (lines t) = t := by
  induction t with
  | nil => rfl
  | cons c r ih =>
    cases hr : lines r with
    | nil => exact absurd hr (lines_ne_nil r)
    | cons l ls =>
      rw [hr] at ih
      by_cases h : c = '\n'
      · simp [lines, h, hr, joinLines, ih]
      · cases ls with
        | nil => simpa [lines, h, hr, joinLines] using ih
        | cons l' ls' => simpa [lines, h, hr, joinLines] using ih

/-- The longest text that both texts start with. -/
def commonStart : Text → Text → Text
  | a :: r, b :: s => if a = b then a :: commonStart r s else []
  | _, _ => []

/-- The indentation that all lines share, among those that hold more than gaps. -/
def margin (ls : List Text) : Text :=
  match (ls.filter fun l => !l.all isGap).map (·.takeWhile isGap) with
  | [] => []
  | first :: rest => rest.foldl commonStart first

/-- Empties the lines that hold only gaps and removes the margin from the others. -/
def dedent (t : Text) : Text :=
  let ls := lines t
  let width := (margin ls).length
  joinLines (ls.map fun l => if l.all isGap then [] else l.drop width)

/-- The text before and the text after the first occurrence of a mark. -/
def cutAt? (mark : Text) : Text → Option (Text × Text)
  | [] => if mark.isEmpty then some ([], []) else none
  | c :: r =>
    if mark.isPrefixOf (c :: r) then some ([], (c :: r).drop mark.length)
    else (cutAt? mark r).map fun (before, after) => (c :: before, after)

/-- The characters of a literal, as a text. -/
def ofString (s : String) : Text := s.toList

/-- Whether a text ends with another. -/
def endsWith (t ending : Text) : Bool :=
  ending.isSuffixOf t

/-! ## Rows -/

/-- The characters that end a row. -/
def endsRow (c : Char) : Bool :=
  let n := c.toNat
  (10 ≤ n && n ≤ 13) || (28 ≤ n && n ≤ 30) || n == 0x85 || n == 0x2028 || n == 0x2029

/-- Splits a text behind each row end; `acc` is the row read so far, backwards. -/
def rowsFrom (acc : Text) : Text → List Text
  | [] => if acc.isEmpty then [] else [acc.reverse]
  | '\r' :: '\n' :: r => (('\n' :: '\r' :: acc).reverse) :: rowsFrom [] r
  | c :: r => if endsRow c then (c :: acc).reverse :: rowsFrom [] r else rowsFrom (c :: acc) r

/-- The rows of a text with the characters that end them. -/
def rows (t : Text) : List Text :=
  rowsFrom [] t

/-- A row without the characters that end it. -/
def bareRow (row : Text) : Text :=
  if endsWith row ['\r', '\n'] then row.dropLast.dropLast
  else if row.getLast?.any endsRow then row.dropLast
  else row

end Text

end Stencil
