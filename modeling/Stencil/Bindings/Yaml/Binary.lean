import Stencil.Encoding.Basic
import Stencil.Text.Quoted

/-!
# Binary data

Reads bytes from text in base 64, in which characters without a meaning are passed over, and shows bytes
between quotes.
-/

namespace Stencil.Yaml.Binary

/-- The six bits that a character stands for. -/
def sextet? (c : Char) : Option Nat :=
  if 'A' ≤ c && c ≤ 'Z' then some (c.toNat - 65)
  else if 'a' ≤ c && c ≤ 'z' then some (c.toNat - 71)
  else if '0' ≤ c && c ≤ '9' then some (c.toNat + 4)
  else if c == '+' then some 62
  else if c == '/' then some 63
  else none

/-- Reads characters. `place` is the number of characters read in the group of four, `kept` the bits that
are left over from the last one, and `pads` the number of padding characters since then. -/
def decodeFrom : Nat → Nat → Nat → Text → Option Bytes
  | 0, _, _, [] => some []
  | _, _, _, [] => none
  | place, kept, pads, c :: r =>
    if c == '=' then
      if 2 ≤ place && 4 ≤ place + pads + 1 then some []
      else decodeFrom place kept (if 2 ≤ place then pads + 1 else pads) r
    else
      match sextet? c with
      | none => decodeFrom place kept pads r
      | some n =>
        match place with
        | 0 => decodeFrom 1 n 0 r
        | 1 => (decodeFrom 2 (n % 16) 0 r).map (UInt8.ofNat (kept * 4 + n / 16) :: ·)
        | 2 => (decodeFrom 3 (n % 4) 0 r).map (UInt8.ofNat (kept * 16 + n / 4) :: ·)
        | _ => (decodeFrom 0 0 0 r).map (UInt8.ofNat (kept * 64 + n) :: ·)

/-- The bytes of a text; all its characters have to be ASCII. -/
def decode? (t : Text) : Option Bytes :=
  if t.all fun c => c.toNat < 0x80 then decodeFrom 0 0 0 t else none

/-- A byte between quotes. -/
def escapeByte (mark : Char) (b : UInt8) : Text :=
  let n := b.toNat
  let c := Char.ofNat n
  if c == mark || c == '\\' then ['\\', c]
  else if n = 9 then ['\\', 't']
  else if n = 10 then ['\\', 'n']
  else if n = 13 then ['\\', 'r']
  else if n < 0x20 || 0x7f ≤ n then '\\' :: 'x' :: Text.hexDigits 2 n
  else [c]

/-- Bytes as they are shown. -/
def shown (bytes : Bytes) : String :=
  let mark := Text.quoteMark (bytes.map fun b => Char.ofNat b.toNat)
  String.ofList ('b' :: mark :: bytes.flatMap (escapeByte mark) ++ [mark])

end Stencil.Yaml.Binary
