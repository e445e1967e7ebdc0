import Stencil.Text.Basic
import Stencil.Text.Printable

/-!
# Quoted texts

A text is quoted between apostrophes, or between double quotes when it holds an apostrophe and no
double quote. Inside, the mark and the backslash are escaped by a backslash, line ends and tabs by
their letters, and every other character that is not printable by its code in hexadecimal digits.
-/

namespace Stencil.Text

/-- A hexadecimal digit in lower case. -/
def hexDigit (n : Nat) : Char :=
  if n < 10 then Char.ofNat (0x30 + n) else Char.ofNat (0x57 + n)

/-- The last `width` hexadecimal digits of a number. -/
def hexDigits : Nat → Nat → Text
  | 0, _ => []
  | width + 1, n => hexDigits width (n / 16) ++ [hexDigit (n % 16)]

/-- The apostrophe. -/
def apostrophe : Char := Char.ofNat 39

/-- The double quote. -/
def doubleQuote : Char := Char.ofNat 34

/-- The mark to quote a text with: the apostrophe, unless only the double quote avoids an escape. -/
def quoteMark (t : Text) : Char :=
  if t.contains apostrophe && !t.contains doubleQuote then doubleQuote else apostrophe

/-- The code of a character behind a backslash, in the narrowest of three widths. -/
def codeEscape (c : Char) : Text :=
  let n := c.toNat
  if n ≤ 0xff then '\\' :: 'x' :: hexDigits 2 n
  else if n ≤ 0xffff then '\\' :: 'u' :: hexDigits 4 n
  else '\\' :: 'U' :: hexDigits 8 n

/-- A text with every character beyond ASCII replaced by its code. -/
def asciiOnly (t : Text) : Text :=
  t.flatMap fun c => if c.toNat < 0x80 then [c] else codeEscape c

/-- One character of a text between the given marks. -/
def escapeChar (mark c : Char) : Text :=
  if c = mark || c = '\\' then ['\\', c]
  else if c = '\n' then ['\\', 'n']
  else if c = '\r' then ['\\', 'r']
  else if c = '\t' then ['\\', 't']
  else if isPrintable c then [c]
  else codeEscape c

/-- A text between quotes. -/
def quoted (t : Text) : Text :=
  let mark := quoteMark t
  mark :: t.flatMap (escapeChar mark) ++ [mark]

/-- A string between quotes. -/
def quotedString (s : String) : String :=
  String.ofList (quoted s.toList)

end Stencil.Text
