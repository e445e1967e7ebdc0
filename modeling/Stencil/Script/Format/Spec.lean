import Stencil.Script.Value.Numeral

/-!
# Format specifications

A format specification says how a number or a string is written: how it is filled up to a width, whether
a sign is shown, how digits are grouped, how many places there are, and in which notation. This module
reads specifications and writes strings, integers and floating-point numbers by them.
-/

namespace Stencil.Script

/-- A format specification. -/
structure FormatSpec where
  fill : Char
  align : Char
  sign : Char
  positiveZero : Bool
  alternate : Bool
  width : Nat
  grouping : Option Char
  precision : Option Nat
  code : Char

namespace FormatSpec

/-- Stands for the notation of numbers when none is given. -/
def noCode : Char := '\x00'

/-- Whether a character is an alignment. -/
def isAlign (c : Char) : Bool :=
  c = '<' || c = '>' || c = '=' || c = '^'

/-- Reads a number, if digits come next. -/
def readNumber (t : Text) : Except Failure (Option Nat × Text) :=
  match Decimal.spanDigits t with
  | ([], r) => .ok (none, r)
  | (ds, r) =>
    let n := Decimal.ofDigits ds
    if n < Nat.pow 2 63 then .ok (some n, r)
    else valueError "Too many decimal digits in format string"

/-- Drops a character from the front of a text, and tells whether it was there. -/
def accept (c : Char) : Text → Bool × Text
  | d :: r => if c = d then (true, r) else (false, d :: r)
  | [] => (false, [])

/-- The fill and the alignment at the front of a specification. -/
def readAlign (t : Text) : Option Char × Option Char × Text :=
  match t with
  | c :: d :: r =>
    if isAlign d then (some c, some d, r)
    else if isAlign c then (none, some c, d :: r)
    else (none, none, t)
  | [c] => if isAlign c then (none, some c, []) else (none, none, t)
  | [] => (none, none, t)

/-- Reads the mark between groups of digits. -/
def readGrouping (t : Text) : Except Failure (Option Char × Text) := do
  let (comma, t) := accept ',' t
  let (underscore, t) := accept '_' t
  if (comma && underscore) || (underscore && t.head? = some ',') then
    valueError "Cannot specify both ',' and '_'."
  else return (if comma then some ',' else if underscore then some '_' else none, t)

/-- Reads the number of places. -/
def readPrecision (t : Text) : Except Failure (Option Nat × Text) := do
  match t with
  | '.' :: r =>
    match ← readNumber r with
    | (some n, r') => return (some n, r')
    | (none, _) => valueError "Format specifier missing precision"
  | _ => return (none, t)

/-- Whether digits can be grouped by a mark in a notation. -/
def groups (mark code : Char) : Bool :=
  ['d', 'e', 'f', 'g', 'E', 'G', '%', 'F', noCode].contains code ||
    (mark = '_' && ['b', 'o', 'x', 'X'].contains code)

/-- Reads a specification for a value of the named kind. -/
def read (kind : String) (defaultCode defaultAlign : Char) (spec : Text) :
    Except Failure FormatSpec := do
  let (fill, align, t) := readAlign spec
  let (sign, t) := match t with
    | c :: r => if c = '+' || c = '-' || c = ' ' then (c, r) else ('\x00', t)
    | [] => ('\x00', t)
  let (positiveZero, t) := accept 'z' t
  let (alternate, t) := accept '#' t
  let (zeros, t) := if fill.isNone then accept '0' t else (false, t)
  let align := if zeros && align.isNone && defaultAlign = '>' then some '=' else align
  let (width, t) ← readNumber t
  let (grouping, t) ← readGrouping t
  let (precision, t) ← readPrecision t
  let code ← match t with
    | [] => pure defaultCode
    | [c] => pure c
    | _ => valueError (s!"Invalid format specifier '{String.ofList spec}' " ++
        s!"for object of type '{kind}'")
  match grouping with
  | some mark =>
    if !groups mark code then
      valueError s!"Cannot specify '{mark}' with '{code}'."
  | none => pure ()
  checkRoom (max (width.getD 0) (precision.getD 0))
  return { fill := fill.getD (if zeros then '0' else ' '), align := align.getD defaultAlign, sign,
           positiveZero, alternate, width := width.getD 0, grouping, precision, code }

/-- Fails because a notation does not apply to a kind of values. -/
def unknownCode {α : Type} (code : Char) (kind : String) : Except Failure α :=
  if 32 < code.toNat && code.toNat < 128 then
    valueError s!"Unknown format code '{code}' for object of type '{kind}'"
  else
    valueError (s!"Unknown format code '\\x{String.ofList (Numeral.digitsIn 16 code.toNat)}' " ++
      s!"for object of type '{kind}'")

/-- Fills a text up to a width; the alignment says on which side. -/
def pad (fill align : Char) (width : Nat) (t : Text) : Text :=
  let missing := width - t.length
  if align = '<' then t ++ List.replicate missing fill
  else if align = '^' then
    List.replicate (missing / 2) fill ++ t ++ List.replicate (missing - missing / 2) fill
  else List.replicate missing fill ++ t

/-- Writes a string. -/
def writeString (s : FormatSpec) (t : Text) : Except Failure Text := do
  if s.code ≠ 's' then unknownCode s.code "str"
  if s.sign = ' ' then valueError "Space not allowed in string format specifier"
  if s.sign ≠ '\x00' then valueError "Sign not allowed in string format specifier"
  if s.positiveZero then
    valueError "Negative zero coercion (z) not allowed in string format specifier"
  if s.alternate then valueError "Alternate form (#) not allowed in string format specifier"
  if s.align = '=' then valueError "'=' alignment not allowed in string format specifier"
  return pad s.fill s.align s.width (match s.precision with
    | some n => t.take n
    | none => t)

/-- Groups digits from the right, by as many leading zeros as fill a width; both lists of digits are
backwards. The first group stands at the end of the result. -/
def groupDigits (mark : Char) (size : Nat) : Nat → Text → Nat → Text
  | 0, ds, _ => ds
  | fuel + 1, ds, width =>
    let len := min size (max (max ds.length width) 1)
    let group := ds.take len ++ List.replicate (len - ds.length) '0'
    let rest := ds.drop len
    if rest.isEmpty && width ≤ len then group
    else group ++ mark :: groupDigits mark size fuel rest (width - len - 1)

/-- The whole part of a number, grouped and with leading zeros up to a width. -/
def grouped (s : FormatSpec) (digits : Text) (width : Nat) : Text :=
  match s.grouping, digits with
  | none, _ => Decimal.padZeros width digits
  | some _, [] => []
  | some mark, _ =>
    let size := if ['b', 'o', 'x', 'X'].contains s.code then 4 else 3
    (groupDigits mark size (digits.length + width + 1) digits.reverse width).reverse

/-- Writes a number from its parts: whether it is negative, what stands before the digits, the whole
digits, and what follows them. -/
def writeNumber (s : FormatSpec) (negative : Bool) (before digits after : Text) : Text :=
  let sign : Text :=
    if negative then ['-'] else if s.sign = '+' then ['+'] else if s.sign = ' ' then [' '] else []
  let front := sign ++ before
  let room := s.width - front.length - after.length
  let zeros := if s.fill = '0' && s.align = '=' then room else 0
  let body := grouped s digits zeros ++ after
  if s.align = '=' then front ++ List.replicate (s.width - front.length - body.length) s.fill ++ body
  else pad s.fill s.align s.width (front ++ body)

/-- Writes the parts of a floating-point number without its sign: the whole digits and the rest. -/
def floatParts (s : FormatSpec) (x : Float) : Except Failure (Text × Text) := do
  let upper := ['E', 'F', 'G'].contains s.code
  match Decimal.ofFloat? x with
  | none =>
    let word := if x.isNaN then "nan" else "inf"
    let percent : Text := if s.code = '%' then ['%'] else []
    return ([], (if upper then Text.upper word.toList else word.toList) ++ percent)
  | some b =>
    let mark := if upper then 'E' else 'e'
    let places := s.precision.getD 6
    let point (t : Text) : Text := if s.alternate && !t.contains '.' then t ++ ['.'] else t
    let body : Text := match s.code with
      | 'e' | 'E' =>
        let (m, e) := b.scientific places mark
        point m ++ e
      | 'f' | 'F' | '%' => point (b.fixed places)
      | '\x00' =>
        match s.precision with
        | none => (Decimal.floatText x).toList.dropWhile (· = '-')
        | some n =>
          let n := max n 1
          let (ds, lead) := b.significant n
          if -4 ≤ lead && lead < n - 1 then
            let t := Decimal.writeFixed ds ((n : Int) - 1 - lead).toNat
            let t := if s.alternate then point t else Decimal.trimFraction t
            if t.contains '.' then t else t ++ ['.', '0']
          else
            let m := Decimal.pointAfterFirst (Decimal.padZeros n (Decimal.digits ds))
            (if s.alternate then point m else Decimal.trimFraction m) ++ Decimal.writePower mark lead
      | _ =>
        let (m, e) := b.general places s.alternate mark
        point m ++ e
    let body := if s.code = '%' then body ++ ['%'] else body
    return Decimal.spanDigits body

/-- Writes a floating-point number. -/
def writeFloat (s : FormatSpec) (x : Float) : Except Failure Text := do
  let x := if s.code = '%' then x * 100 else x
  let (digits, after) ← floatParts s x
  let zero := digits.all (· = '0') && after.all fun c => c = '0' || c = '.' || c = '%'
  let negative := Decimal.signBit x && !x.isNaN && !(s.positiveZero && zero)
  return writeNumber s negative [] digits after

/-- Whether a notation is for integers. -/
def isIntCode (c : Char) : Bool :=
  ['b', 'c', 'd', 'o', 'x', 'X', 'n', noCode].contains c

/-- Whether a notation is for floating-point numbers. -/
def isFloatCode (c : Char) : Bool :=
  ['e', 'E', 'f', 'F', 'g', 'G', '%', 'n', noCode].contains c

/-- The digits of an integer in the base of a notation. -/
def intDigits (code : Char) (n : Nat) : Text :=
  match code with
  | 'b' => Numeral.digitsIn 2 n
  | 'o' => Numeral.digitsIn 8 n
  | 'x' => Numeral.digitsIn 16 n
  | 'X' => Text.upper (Numeral.digitsIn 16 n)
  | _ => Decimal.digits n

/-- Writes an integer as a character. -/
def writeCharacter (s : FormatSpec) (i : Int) : Except Failure Text := do
  if s.sign ≠ '\x00' then valueError "Sign not allowed with integer format specifier 'c'"
  if s.alternate then
    valueError "Alternate form (#) not allowed with integer format specifier 'c'"
  if i < 0 || 0x10ffff < i then failWith .overflowError "%c arg not in range(0x110000)"
  return pad s.fill s.align s.width [Char.ofNat i.toNat]

/-- Writes an integer. -/
def writeInt (s : FormatSpec) (kind : String) (i : Int) : Except Failure Text := do
  if isIntCode s.code then
    if s.precision.isSome then valueError "Precision not allowed in integer format specifier"
    if s.positiveZero then
      valueError "Negative zero coercion (z) not allowed in integer format specifier"
    if s.code = 'c' then writeCharacter s i
    else
      let before : Text := if s.alternate && ['b', 'o', 'x', 'X'].contains s.code then ['0', s.code] else []
      return writeNumber s (i < 0) before (intDigits s.code i.natAbs) []
  else if isFloatCode s.code then
    writeFloat s (← Number.floatOfInt i)
  else unknownCode s.code kind

end FormatSpec

/-- Writes a value by a specification that is not empty. -/
def Value.formatted (kind : String) (v : Value) (spec : Text) : Except Failure Text := do
  match v with
  | .str s => (← FormatSpec.read kind 's' '<' spec).writeString s.toList
  | .float x =>
    let s ← FormatSpec.read kind FormatSpec.noCode '>' spec
    if FormatSpec.isFloatCode s.code then
      (if s.code = 'n' then { s with code := 'g' } else s).writeFloat x
    else FormatSpec.unknownCode s.code kind
  | _ =>
    match v.int? with
    | some i => (← FormatSpec.read kind FormatSpec.noCode '>' spec).writeInt kind i
    | Option.none => typeError s!"unsupported format string passed to {kind}.__format__"

end Stencil.Script
