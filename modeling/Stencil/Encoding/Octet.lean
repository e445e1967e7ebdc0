import Stencil.Encoding.Basic

/-!
# Encodings with one byte a character

ASCII, Latin-1 and Windows-1252 give each character one byte. Each is a partial map from bytes to
characters; a text is written by the inverse map.
-/

namespace Stencil.Octet

/-- An encoding with one byte a character: its name in messages, the character of a byte, the byte of a
character, and the reasons for what has none. -/
structure Table where
  codec : String
  char? : UInt8 → Option Char
  byte? : Char → Option UInt8
  undecodable : DecodeReason
  unencodable : String

/-- Reads the bytes from a position on. -/
def Table.decodeFrom (t : Table) (acc : Text) (pos : Nat) : Bytes → Except DecodeError Text
  | [] => .ok acc.reverse
  | b :: r =>
    match t.char? b with
    | some c => t.decodeFrom (c :: acc) (pos + 1) r
    | none => .error ⟨t.codec, t.undecodable, pos, pos + 1, b⟩

/-- The text that bytes stand for. -/
def Table.decode (t : Table) (bytes : Bytes) : Except DecodeError Text :=
  t.decodeFrom [] 0 bytes

/-- Writes the characters from a position on. An error covers all characters without bytes that follow
one another. -/
def Table.encodeFrom (t : Table) (acc : Bytes) (pos : Nat) : Text → Except EncodeError Bytes
  | [] => .ok acc.reverse
  | c :: r =>
    match t.byte? c with
    | some b => t.encodeFrom (b :: acc) (pos + 1) r
    | none =>
      let more := (r.takeWhile fun c => (t.byte? c).isNone).length
      .error ⟨t.codec, t.unencodable, pos, more + 1, c⟩

/-- The bytes of a text. -/
def Table.encode (t : Table) (text : Text) : Except EncodeError Bytes :=
  t.encodeFrom [] 0 text

/-- ASCII has the characters below 128. -/
def ascii : Table where
  codec := "ascii"
  char? b := if b.toNat < 0x80 then some (Char.ofNat b.toNat) else none
  byte? c := if c.toNat < 0x80 then some (UInt8.ofNat c.toNat) else none
  undecodable := .beyondAscii
  unencodable := "ordinal not in range(128)"

/-- Latin-1 has the characters below 256. -/
def latin1 : Table where
  codec := "latin-1"
  char? b := some (Char.ofNat b.toNat)
  byte? c := if c.toNat < 0x100 then some (UInt8.ofNat c.toNat) else none
  undecodable := .undefinedByte
  unencodable := "ordinal not in range(256)"

/-- The codes of the characters that Windows-1252 has from byte 0x80 up to byte 0x9f; zero where there is
none. -/
def windowsCodes : List Nat := [
  0x20ac, 0, 0x201a, 0x0192, 0x201e, 0x2026, 0x2020, 0x2021,
  0x02c6, 0x2030, 0x0160, 0x2039, 0x0152, 0, 0x017d, 0,
  0, 0x2018, 0x2019, 0x201c, 0x201d, 0x2022, 0x2013, 0x2014,
  0x02dc, 0x2122, 0x0161, 0x203a, 0x0153, 0, 0x017e, 0x0178]

/-- Windows-1252 is Latin-1 with other characters from byte 0x80 up to byte 0x9f. -/
def windows1252 : Table where
  codec := "charmap"
  char? b :=
    let n := b.toNat
    if 0x80 ≤ n && n < 0xa0 then
      match windowsCodes[n - 0x80]? with
      | some 0 | none => none
      | some code => some (Char.ofNat code)
    else some (Char.ofNat n)
  byte? c :=
    let n := c.toNat
    if n < 0x80 || (0xa0 ≤ n && n < 0x100) then some (UInt8.ofNat n)
    else (windowsCodes.findIdx? fun code => code == n).map fun i => UInt8.ofNat (0x80 + i)
  undecodable := .undefinedByte
  unencodable := "character maps to <undefined>"

end Stencil.Octet
