import Stencil.Script.Token
import Stencil.Bindings.Json

/-!
# What string literals say

Decodes the escapes of a string literal and splits a string with fields into its pieces: literal text,
and fields whose value is still text. A field may give its value a letter and a format, and a format
may hold one more level of fields.
-/

namespace Stencil.Script

/-- The octal digits at the start of a text, at most the given number. -/
def octalDigits : Nat → Text → Text
  | 0, _ => []
  | n + 1, c :: r => if '0' ≤ c && c ≤ '7' then c :: octalDigits n r else []
  | _, [] => []

/-- The character of an escape of a fixed number of hexadecimal digits. -/
def hexEscape? (width : Nat) (t : Text) : Option (Char × Text) :=
  if t.length < width then none
  else (Json.hexNumber? (t.take width)).bind fun n =>
    if 0x10ffff < n then none else some (Json.charOf n, t.drop width)

/-- The character that a single letter behind a backslash stands for. -/
def letterEscape? : Char → Option Char
  | 'a' => some (Char.ofNat 7)
  | 'b' => some (Char.ofNat 8)
  | 'f' => some (Char.ofNat 12)
  | 'n' => some '\n'
  | 'r' => some '\r'
  | 't' => some '\t'
  | 'v' => some (Char.ofNat 11)
  | '\\' => some '\\'
  | c => if c = Char.ofNat 34 || c = Char.ofNat 39 then some c else none

/-- Decodes the escapes of a literal. Unknown escapes stay as they are; an incomplete one is an error.
In byte strings only escapes of bytes count. -/
def decodeEscapes (bytes : Bool) : Nat → Text → Option Text
  | 0, _ => none
  | _, [] => some []
  | fuel + 1, '\\' :: '\n' :: r => decodeEscapes bytes fuel r
  | fuel + 1, '\\' :: c :: r =>
    match letterEscape? c with
    | some d => (decodeEscapes bytes fuel r).map (d :: ·)
    | none =>
      if '0' ≤ c && c ≤ '7' then
        let ds := octalDigits 3 (c :: r)
        let n := ds.foldl (fun n d => 8 * n + (d.toNat - 48)) 0
        let n := if bytes then n % 256 else n
        (decodeEscapes bytes fuel ((c :: r).drop ds.length)).map (Char.ofNat n :: ·)
      else if c = 'x' then
        match hexEscape? 2 r with
        | some (d, r') => (decodeEscapes bytes fuel r').map (d :: ·)
        | none => none
      else if c = 'u' && !bytes then
        match hexEscape? 4 r with
        | some (d, r') => (decodeEscapes bytes fuel r').map (d :: ·)
        | none => none
      else if c = 'U' && !bytes then
        match hexEscape? 8 r with
        | some (d, r') => (decodeEscapes bytes fuel r').map (d :: ·)
        | none => none
      else if c = 'N' && !bytes then
        match r with
        | '{' :: r' =>
          match Text.cutAt? ['}'] r' with
          | some (_ :: _, r'') => (decodeEscapes bytes fuel r'').map (Char.ofNat 0xfffd :: ·)
          | _ => none
        | _ => none
      else (decodeEscapes bytes fuel r).map fun t => '\\' :: c :: t
  | fuel + 1, c :: r => (decodeEscapes bytes fuel r).map (c :: ·)

/-- The text of a literal with the given flag for rawness. -/
def literalText (raw bytes : Bool) (body : Text) : Option Text :=
  if raw then some body else decodeEscapes bytes (body.length + 1) body

/-- A piece of a string with fields. A field keeps the text of its value, the number of line breaks in
front of it, the text to show in front of the value, its letter, and its format. -/
inductive Piece where
  | text (t : Text)
  | field (value : Text) (breaksBefore : Nat) (shown : Option Text) (conversion : Option Char)
      (format : Option (List Piece))

/-- A literal run: its text, whether a doubled brace ended it, and the text behind it. -/
structure LiteralRun where
  text : Text
  rest : Text

/-- Reads literal text up to a brace that is not doubled. Within a format braces are never doubled. A
lone closing brace outside a format is an error. -/
def literalRun (raw inFormat : Bool) : Nat → Text → Option LiteralRun
  | 0, _ => none
  | _, [] => some ⟨[], []⟩
  | fuel + 1, '\\' :: c :: r =>
    if raw then (literalRun raw inFormat fuel (c :: r)).map fun l => { l with text := '\\' :: l.text }
    else if c = 'N' then
      match r with
      | '{' :: r' =>
        let name := r'.takeWhile (· ≠ '}')
        let len := if name.length < r'.length then name.length + 1 else name.length
        (literalRun raw inFormat fuel (r'.drop len)).map fun l =>
          { l with text := '\\' :: 'N' :: '{' :: r'.take len ++ l.text }
      | d :: r' =>
        (literalRun raw inFormat fuel r').map fun l => { l with text := '\\' :: 'N' :: d :: l.text }
      | [] => some ⟨['\\', 'N'], []⟩
    else if c = '{' || c = '}' then
      (literalRun raw inFormat fuel (c :: r)).map fun l => { l with text := '\\' :: l.text }
    else (literalRun raw inFormat fuel r).map fun l => { l with text := '\\' :: c :: l.text }
  | fuel + 1, c :: r =>
    if c = '{' || c = '}' then
      if !inFormat && r.head? == some c then
        (literalRun raw inFormat fuel (r.drop 1)).map fun l => { l with text := c :: l.text }
      else if !inFormat && c = '}' then none
      else some ⟨[], c :: r⟩
    else (literalRun raw inFormat fuel r).map fun l => { l with text := c :: l.text }

/-- What encloses the place in the value of a field: an open string with its quote, or open brackets. -/
structure FieldState where
  quote : Option (Char × Bool)
  opens : List Char

/-- The value of a field and the text behind it, which starts with the mark that ended the value. -/
def fieldValue : Nat → FieldState → Text → Option (Text × Text)
  | 0, _, _ => none
  | _, _, [] => none
  | fuel + 1, s, c :: r =>
    let go (s : FieldState) (taken : Nat) : Option (Text × Text) :=
      (fieldValue fuel s ((c :: r).drop taken)).map fun (v, rest) => ((c :: r).take taken ++ v, rest)
    if c = '\\' then none
    else
      match s.quote with
      | some (q, triple) =>
        if c = q then
          if triple then
            if [q, q].isPrefixOf r then go { s with quote := none } 3 else go s 1
          else go { s with quote := none } 1
        else go s 1
      | none =>
        if c = Char.ofNat 34 || c = Char.ofNat 39 then
          if [c, c].isPrefixOf r then go { s with quote := some (c, true) } 3
          else go { s with quote := some (c, false) } 1
        else if c = '(' || c = '[' || c = '{' then
          if 200 ≤ s.opens.length then none else go { s with opens := c :: s.opens } 1
        else if c = '#' then none
        else if s.opens.isEmpty && (c = '!' || c = ':' || c = '}' || c = '=' || c = '>' || c = '<') then
          if r.head? == some '=' && (c = '!' || c = '=' || c = '<' || c = '>') then go s 2
          else if c = '>' || c = '<' then go s 1
          else some ([], c :: r)
        else if c = ')' || c = ']' || c = '}' then
          match s.opens with
          | [] => none
          | o :: outer =>
            let closer := if o = '(' then ')' else if o = '[' then ']' else '}'
            if closer = c then go { s with opens := outer } 1 else none
        else go s 1

/-- The text to show in front of the value of a field, where an equals sign asks for it, and the text that
is left. -/
def shownText (value : Text) : Text → Option Text × Text
  | '=' :: r =>
    let gap := r.takeWhile fun c => c == ' ' || (9 ≤ c.toNat && c.toNat ≤ 13)
    (some (value ++ '=' :: gap), r.drop gap.length)
  | r => (none, r)

/-- The letter of a field, if it has one, and the text behind it. -/
def fieldLetter? : Text → Option (Option Char × Text)
  | '!' :: k :: r => if k = 's' || k = 'r' || k = 'a' then some (some k, r) else none
  | ['!'] => none
  | r => some (none, r)

/-- Splits a string with fields, or a format, into pieces, and gives the text that is left, which is
empty or starts with the brace that ends a format. -/
def splitPieces (raw : Bool) : Nat → Nat → Nat → Text → Option (List Piece × Text)
  | 0, _, _, _ => none
  | fuel + 1, level, breaks, t => do
    let run ← literalRun raw (0 < level) (t.length + 1) t
    let text ← literalText raw false run.text
    let front : List Piece := if text.isEmpty then [] else [.text text]
    let before := breaks + Text.breaks (t.take (t.length - run.rest.length))
    match run.rest with
    | '{' :: r =>
      if 2 ≤ level then none
      let (value, rest) ← fieldValue (r.length + 1) ⟨none, []⟩ r
      if value.all fun c => c == ' ' || c == '\t' || c == '\n' || c == '\x0c' then none
      let (shown, rest) := shownText value rest
      let (conversion, rest) ← fieldLetter? rest
      let upTo (rest : Text) : Nat := breaks + Text.breaks (t.take (t.length - rest.length))
      let (format, rest) ← (match rest with
        | ':' :: r' =>
          if r'.isEmpty then none
          else (splitPieces raw fuel (level + 1) (upTo r') r').map fun (ps, r'') => (some ps, r'')
        | r' => some (none, r'))
      match rest with
      | '}' :: r' =>
        let conversion :=
          if shown.isSome && conversion.isNone && format.isNone then some 'r' else conversion
        let (pieces, final) ← splitPieces raw fuel level (upTo r') r'
        return (front ++ .field value before shown conversion format :: pieces, final)
      | _ => none
    | rest => return (front, rest)

end Stencil.Script
