import Stencil.Text.Quoted

/-!
# Encodings of text

An encoding says which bytes stand for a text. This module names the encodings and the reasons for which
bytes are no text or a text has no bytes; the modules beside it read and write the single encodings.
-/

namespace Stencil

/-- The contents of a file. -/
abbrev Bytes := List UInt8

/-- The encodings of text. The marked ones may begin with a byte order mark, which is not part of the
text. -/
inductive Encoding where
  | utf8
  | utf8Marked
  | ascii
  | latin1
  | windows1252
  | utf16Marked
  | utf16Little
  | utf16Big
  deriving Repr, DecidableEq

/-- Why bytes stand for no text. -/
inductive DecodeReason where
  | invalidStart
  | invalidContinuation
  | unexpectedEnd
  | beyondAscii
  | undefinedByte
  | truncated
  | lowSurrogateFirst
  | surrogateNotPaired
  deriving Repr, DecidableEq

/-- The words for a reason. -/
def DecodeReason.text : DecodeReason → String
  | invalidStart => "invalid start byte"
  | invalidContinuation => "invalid continuation byte"
  | unexpectedEnd => "unexpected end of data"
  | beyondAscii => "ordinal not in range(128)"
  | undefinedByte => "character maps to <undefined>"
  | truncated => "truncated data"
  | lowSurrogateFirst => "illegal encoding"
  | surrogateNotPaired => "illegal UTF-16 surrogate"

/-- Bytes that stand for no text: from `start` up to before `stop`, the first of them being `first`. -/
structure DecodeError where
  codec : String
  reason : DecodeReason
  start : Nat
  stop : Nat
  first : UInt8
  deriving Repr, DecidableEq

/-- The message of an error of decoding. -/
def DecodeError.message (e : DecodeError) : String :=
  let which :=
    if e.stop = e.start + 1 then
      "byte 0x" ++ String.ofList (Text.hexDigits 2 e.first.toNat) ++ s!" in position {e.start}"
    else s!"bytes in position {e.start}-{e.stop - 1}"
  s!"'{e.codec}' codec can't decode {which}: {e.reason.text}"

/-- Characters that have no bytes: `count` of them from `start` on, the first of them being `first`. -/
structure EncodeError where
  codec : String
  reason : String
  start : Nat
  count : Nat
  first : Char
  deriving Repr, DecidableEq

/-- A character by its code, as messages show it. -/
def codeShown (c : Char) : String :=
  let n := c.toNat
  String.ofList <|
    if n ≤ 0xff then '\\' :: 'x' :: Text.hexDigits 2 n
    else if n ≤ 0xffff then '\\' :: 'u' :: Text.hexDigits 4 n
    else '\\' :: 'U' :: Text.hexDigits 8 n

/-- The message of an error of encoding. -/
def EncodeError.message (e : EncodeError) : String :=
  let which :=
    if e.count = 1 then s!"character '{codeShown e.first}' in position {e.start}"
    else s!"characters in position {e.start}-{e.start + e.count - 1}"
  s!"'{e.codec}' codec can't encode {which}: {e.reason}"

end Stencil
