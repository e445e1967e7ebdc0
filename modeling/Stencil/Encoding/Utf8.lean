import Stencil.Encoding.Basic

/-!
# UTF-8

Reads bytes as UTF-8 one byte at a time, and writes characters as one to four bytes. The reader refuses
the first byte that no text can go on with, so overlong forms and surrogates are refused at their second
byte.
-/

namespace Stencil.Utf8

/-- The name of the encoding in messages. -/
def codec : String := "utf-8"

/-- Where the reader stands: between characters, or inside one that began at `start`, of whose code
`value` has been read, with `left` more bytes to come, the next of them from `low` to `high`. -/
inductive State where
  | between
  | inside (start value left low high : Nat)
  deriving Repr, DecidableEq

/-- The state behind the first byte of a character that has more than one. -/
def afterFirst? (start b : Nat) : Option State :=
  if 0xc2 ≤ b && b ≤ 0xdf then some (.inside start (b - 0xc0) 1 0x80 0xbf)
  else if b = 0xe0 then some (.inside start 0 2 0xa0 0xbf)
  else if b = 0xed then some (.inside start 0xd 2 0x80 0x9f)
  else if 0xe1 ≤ b && b ≤ 0xef then some (.inside start (b - 0xe0) 2 0x80 0xbf)
  else if b = 0xf0 then some (.inside start 0 3 0x90 0xbf)
  else if 0xf1 ≤ b && b ≤ 0xf3 then some (.inside start (b - 0xf0) 3 0x80 0xbf)
  else if b = 0xf4 then some (.inside start 4 3 0x80 0x8f)
  else none

/-- An error for the bytes from `start` up to before `stop`. -/
def refuse (reason : DecodeReason) (first : UInt8) (start stop : Nat) : Except DecodeError Text :=
  .error ⟨codec, reason, start, stop, first⟩

/-- Reads the bytes from a position on. `first` is the first byte of the character that is being read,
`acc` holds the characters read, the last one first. -/
def decodeFrom (first : UInt8) (acc : Text) : Nat → State → Bytes → Except DecodeError Text
  | _, .between, [] => .ok acc.reverse
  | pos, .inside start .., [] => refuse .unexpectedEnd first start pos
  | pos, .between, b :: r =>
    if b.toNat < 0x80 then decodeFrom first (Char.ofNat b.toNat :: acc) (pos + 1) .between r
    else
      match afterFirst? pos b.toNat with
      | some s => decodeFrom b acc (pos + 1) s r
      | none => refuse .invalidStart b pos (pos + 1)
  | pos, .inside start value left low high, b :: r =>
    if low ≤ b.toNat && b.toNat ≤ high then
      let value := value * 64 + (b.toNat - 0x80)
      if left ≤ 1 then decodeFrom first (Char.ofNat value :: acc) (pos + 1) .between r
      else decodeFrom first acc (pos + 1) (.inside start value (left - 1) 0x80 0xbf) r
    else refuse .invalidContinuation first start pos

/-- The text that bytes stand for. -/
def decode (bytes : Bytes) : Except DecodeError Text :=
  decodeFrom 0 [] 0 .between bytes

/-- A byte that continues a character: six bits of its code. -/
def continuation (n : Nat) : UInt8 :=
  UInt8.ofNat (0x80 + n % 64)

/-- The bytes of a character. -/
def encodeChar (c : Char) : Bytes :=
  let n := c.toNat
  if n < 0x80 then [UInt8.ofNat n]
  else if n < 0x800 then [UInt8.ofNat (0xc0 + n / 64), continuation n]
  else if n < 0x10000 then
    [UInt8.ofNat (0xe0 + n / 4096), continuation (n / 64), continuation n]
  else
    [UInt8.ofNat (0xf0 + n / 262144), continuation (n / 4096), continuation (n / 64),
      continuation n]

/-- The bytes of a text. -/
def encode (t : Text) : Bytes :=
  t.flatMap encodeChar

/-- The byte order mark. -/
def mark : Bytes := [0xef, 0xbb, 0xbf]

/-- The text that bytes stand for that may begin with a mark. Positions are counted behind the mark. -/
def decodeMarked (bytes : Bytes) : Except DecodeError Text :=
  decode (if mark.isPrefixOf bytes then bytes.drop 3 else bytes)

end Stencil.Utf8
