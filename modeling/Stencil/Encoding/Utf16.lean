import Stencil.Encoding.Basic

/-!
# UTF-16

Reads pairs of bytes as code units, and one or two code units as a character. The order of the two bytes
is fixed, or told by the byte order mark at the beginning.
-/

namespace Stencil.Utf16

/-- The order of the bytes of a code unit. -/
inductive Order where
  | little
  | big
  deriving Repr, DecidableEq

/-- The name of the encoding in messages. -/
def Order.codec : Order → String
  | little => "utf-16-le"
  | big => "utf-16-be"

/-- The code unit of two bytes. -/
def Order.unit (o : Order) (a b : UInt8) : Nat :=
  match o with
  | little => a.toNat + 256 * b.toNat
  | big => 256 * a.toNat + b.toNat

/-- The bytes of a code unit. -/
def Order.bytes (o : Order) (u : Nat) : Bytes :=
  match o with
  | little => [UInt8.ofNat (u % 256), UInt8.ofNat (u / 256)]
  | big => [UInt8.ofNat (u / 256), UInt8.ofNat (u % 256)]

/-- Whether a code unit is the first of a pair. -/
def isHigh (u : Nat) : Bool :=
  0xd800 ≤ u && u < 0xdc00

/-- Whether a code unit is the second of a pair. -/
def isLow (u : Nat) : Bool :=
  0xdc00 ≤ u && u < 0xe000

/-- The code of a pair. -/
def pairCode (high low : Nat) : Nat :=
  0x10000 + (high - 0xd800) * 0x400 + (low - 0xdc00)

/-- Reads the bytes from a position on. `acc` holds the characters read, the last one first. -/
def decodeFrom (o : Order) (acc : Text) (pos : Nat) : Bytes → Except DecodeError Text
  | [] => .ok acc.reverse
  | [a] => .error ⟨o.codec, .truncated, pos, pos + 1, a⟩
  | a :: b :: r =>
    let u := o.unit a b
    if isHigh u then
      match r with
      | c :: d :: s =>
        if isLow (o.unit c d) then
          decodeFrom o (Char.ofNat (pairCode u (o.unit c d)) :: acc) (pos + 4) s
        else .error ⟨o.codec, .surrogateNotPaired, pos, pos + 2, a⟩
      | r => .error ⟨o.codec, .unexpectedEnd, pos, pos + 2 + r.length, a⟩
    else if isLow u then .error ⟨o.codec, .lowSurrogateFirst, pos, pos + 2, a⟩
    else decodeFrom o (Char.ofNat u :: acc) (pos + 2) r

/-- The text that bytes in a fixed order stand for. -/
def decode (o : Order) (bytes : Bytes) : Except DecodeError Text :=
  decodeFrom o [] 0 bytes

/-- The order that a byte order mark at the beginning tells. -/
def orderOf? : Bytes → Option Order
  | a :: b :: _ =>
    if a = 0xff && b = 0xfe then some .little
    else if a = 0xfe && b = 0xff then some .big
    else none
  | _ => none

/-- The text that bytes stand for that may begin with a mark. Without one the order is little. Positions
are counted from the mark on. -/
def decodeMarked (bytes : Bytes) : Except DecodeError Text :=
  match orderOf? bytes with
  | some o => decodeFrom o [] 2 (bytes.drop 2)
  | none => decode .little bytes

/-- The code units of a character. -/
def units (c : Char) : List Nat :=
  let n := c.toNat
  if n < 0x10000 then [n]
  else [0xd800 + (n - 0x10000) / 0x400, 0xdc00 + (n - 0x10000) % 0x400]

/-- The bytes of a text. -/
def encode (o : Order) (t : Text) : Bytes :=
  t.flatMap fun c => (units c).flatMap o.bytes

/-- The bytes of a text behind a mark, in little order. -/
def encodeMarked (t : Text) : Bytes :=
  0xff :: 0xfe :: encode .little t

end Stencil.Utf16
