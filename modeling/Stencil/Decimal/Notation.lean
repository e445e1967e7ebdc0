import Stencil.Decimal.Binary

/-!
# Decimal notation

Writes digits positionally or with an exponent, for a fixed number of places or of digits, and reads
decimal notation back to the nearest floating-point number.
-/

namespace Stencil.Decimal

/-- The decimal digits of a natural number. -/
def digits (n : Nat) : List Char :=
  Nat.toDigits 10 n

/-- Pads digits with zeros on the left to a width. -/
def padZeros (width : Nat) (ds : List Char) : List Char :=
  List.replicate (width - ds.length) '0' ++ ds

/-- Writes `n / 10 ^ places` with exactly that many places behind the point. -/
def writeFixed (n places : Nat) : List Char :=
  let ds := padZeros (places + 1) (digits n)
  let whole := ds.take (ds.length - places)
  if places = 0 then whole else whole ++ '.' :: ds.drop (ds.length - places)

/-- Writes the power of ten of scientific notation: a mark, a sign, and at least two digits. -/
def writePower (mark : Char) (e : Int) : List Char :=
  mark :: (if e < 0 then '-' else '+') :: padZeros 2 (digits e.natAbs)

/-- Puts a point behind the first of the digits, if there are more. -/
def pointAfterFirst : List Char → List Char
  | [] => []
  | [d] => [d]
  | d :: r => d :: '.' :: r

/-- Which powers of ten of the leading digit are written positionally, and whether whole numbers show a
point. -/
structure Style where
  least : Int
  beyond : Int
  showPoint : Bool

/-- Numbers are written positionally from `10 ^ -4` up to below `10 ^ 16` and always show that they
are not integers. -/
def Style.plain : Style := ⟨-4, 16, true⟩

/-- Writes positive digits in a style: positionally within its powers of ten, else in scientific
notation. -/
def Style.write (s : Style) (v : Scaled) : List Char :=
  let ds := digits v.digits
  let lead : Int := v.exponent + ds.length - 1
  if s.least ≤ lead && lead < s.beyond then
    if 0 ≤ v.exponent then
      ds ++ List.replicate v.exponent.toNat '0' ++ if s.showPoint then ['.', '0'] else []
    else writeFixed v.digits (-v.exponent).toNat
  else pointAfterFirst ds ++ writePower 'e' lead

/-- The shortest text of a floating-point number that reads back as the same number. -/
def floatText (x : Float) : String :=
  if x.isNaN then "nan"
  else
    let sign := if signBit x then "-" else ""
    match ofFloat? x with
    | none => sign ++ "inf"
    | some b =>
      if b.mantissa = 0 then sign ++ "0.0"
      else sign ++ String.ofList (Style.plain.write b.shortest)

/-- The magnitude of a number with a fixed number of places, rounded half to even. -/
def Binary.fixed (b : Binary) (places : Nat) : List Char :=
  let (n, d) := b.ratio
  writeFixed (roundDiv (n * Nat.pow 10 places) d) places

/-- The magnitude of a number rounded half to even to a number of significant digits, with the power of
ten of the leading digit. -/
def Binary.significant (b : Binary) (count : Nat) : Nat × Int :=
  let (n, d) := b.ratio
  if n = 0 then (0, 0)
  else
    let lead := log10Ratio n d
    let (n', d') := shiftedTen n d ((count : Int) - 1 - lead)
    let ds := roundDiv n' d'
    if Nat.pow 10 count ≤ ds then (ds / 10, lead + 1) else (ds, lead)

/-- The magnitude of a number in scientific notation with a number of places. -/
def Binary.scientific (b : Binary) (places : Nat) (mark : Char) : List Char × List Char :=
  let (ds, lead) := b.significant (places + 1)
  (pointAfterFirst (padZeros (places + 1) (digits ds)), writePower mark lead)

/-- Removes the zeros that end a fraction, and its point when nothing is left behind it. -/
def trimFraction (ds : List Char) : List Char :=
  if ds.contains '.' then
    let r := ds.reverse.dropWhile (· == '0')
    (if r.head? == some '.' then r.drop 1 else r).reverse
  else ds

/-- The magnitude of a number in the shorter of the two notations for a number of significant digits,
without zeros that end the fraction unless `keep` holds. The exponent part is apart. -/
def Binary.general (b : Binary) (count : Nat) (keep : Bool) (mark : Char) :
    List Char × List Char :=
  let count := max count 1
  let (ds, lead) := b.significant count
  let tidy (t : List Char) := if keep then t else trimFraction t
  if -4 ≤ lead && lead < count then
    (tidy (writeFixed ds ((count : Int) - 1 - lead).toNat), [])
  else (tidy (pointAfterFirst (padZeros count (digits ds))), writePower mark lead)

/-- The floating-point number nearest to decimal digits times a power of ten. Powers far outside the
range of floating-point numbers are answered without computing them. -/
def readScaled (negative : Bool) (ds : Nat) (exponent : Int) : Float :=
  let size : Int := (Nat.log2 ds : Int) * 30103 / 100000 + exponent
  if ds = 0 then nearest negative 0 1
  else if 400 < size then nearest negative (Nat.pow 2 1100) 1
  else if size < -400 then nearest negative 0 1
  else
    let (n, d) := shiftedTen ds 1 exponent
    nearest negative n d

/-- The number that decimal digits stand for. -/
def ofDigits (ds : List Char) : Nat :=
  ds.foldl (fun n c => 10 * n + (c.toNat - '0'.toNat)) 0

/-- Splits a text behind its leading decimal digits. -/
def spanDigits (t : List Char) : List Char × List Char :=
  t.span fun c => '0' ≤ c && c ≤ '9'

/-- The parts of an unsigned decimal numeral: the digits before the point, those behind it, if there is
a point, and the exponent, if there is one. -/
structure Numeral where
  whole : List Char
  fraction : Option (List Char)
  power : Option Int
  deriving Repr, DecidableEq

/-- The exponent part of a numeral, if the text goes on with one. -/
def readPower (t : List Char) : Option Int × List Char :=
  match t with
  | c :: r =>
    if c = 'e' || c = 'E' then
      let (negative, r') :=
        match r with
        | '-' :: s => (true, s)
        | '+' :: s => (false, s)
        | s => (false, s)
      match spanDigits r' with
      | ([], _) => (none, t)
      | (ds, rest) =>
        let n : Int := ofDigits ds
        (some (if negative then -n else n), rest)
    else (none, t)
  | [] => (none, t)

/-- The floating-point number a numeral stands for. -/
def Numeral.value (n : Numeral) (negative : Bool) : Float :=
  let fraction := n.fraction.getD []
  readScaled negative (ofDigits (n.whole ++ fraction)) (n.power.getD 0 - fraction.length)

end Stencil.Decimal
