/-!
# Floating-point numbers as exact fractions

A finite floating-point number is a sign and an integer multiple of a power of two. This module takes
numbers apart into these, rounds an exact fraction to the nearest floating-point number, a tie going to
the even neighbour, and finds the shortest decimal that reads back. For each number of digits from one
to seventeen, the two neighbours of a number on the decimal grid of that many digits are tried in turn.
The first grid with a neighbour inside the interval of reals that round to the number wins; of two such
neighbours the nearer one is taken.
-/

namespace Stencil.Decimal

/-- An exact binary fraction: `mantissa * 2 ^ exponent`, negated where `negative` holds. -/
structure Binary where
  negative : Bool
  mantissa : Nat
  exponent : Int
  deriving Repr, DecidableEq

/-- The quotient of two numbers rounded to the nearest integer, a tie going to the even one. -/
def roundDiv (num den : Nat) : Nat :=
  let q := num / den
  let r := num % den
  if 2 * r < den then q
  else if den < 2 * r then q + 1
  else if q % 2 = 0 then q else q + 1

/-- The sign bit of a number, which zeros and not-a-numbers have too. -/
def signBit (x : Float) : Bool :=
  x.toBits.toNat / Nat.pow 2 63 = 1

/-- The exact value of a finite number. -/
def ofFloat? (x : Float) : Option Binary :=
  let bits : Nat := x.toBits.toNat
  let field : Nat := bits / Nat.pow 2 52 % Nat.pow 2 11
  let fraction : Nat := bits % Nat.pow 2 52
  if field = 2047 then none
  else if field = 0 then some ⟨signBit x, fraction, -1074⟩
  else some ⟨signBit x, fraction + Nat.pow 2 52, (field : Int) - 1075⟩

/-- A fraction `num / den` with the power of two moved to the numerator or the denominator. -/
def shifted (num den : Nat) (power : Int) : Nat × Nat :=
  if 0 ≤ power then (num * Nat.pow 2 power.toNat, den)
  else (num, den * Nat.pow 2 (-power).toNat)

/-- The integer part of the base-two logarithm of a positive fraction. -/
def log2Ratio (num den : Nat) : Int :=
  let estimate : Int := (Nat.log2 num : Int) - Nat.log2 den
  let (n, d) := shifted num den (-estimate)
  if d ≤ n then estimate else estimate - 1

/-- The bits of the floating-point number nearest to a fraction; too large a fraction gives infinity. -/
def nearestBits (num den : Nat) : Nat :=
  if num = 0 then 0
  else
    let exponent := max (-1074) (log2Ratio num den - 52)
    let (n, d) := shifted num den (-exponent)
    let m := roundDiv n d
    let bits :=
      if m < Nat.pow 2 52 then m
      else (exponent + 1075).toNat * Nat.pow 2 52 + (m - Nat.pow 2 52)
    if 2047 * Nat.pow 2 52 ≤ bits then 2047 * Nat.pow 2 52 else bits

/-- The floating-point number nearest to a fraction with the given sign. -/
def nearest (negative : Bool) (num den : Nat) : Float :=
  Float.ofBits (UInt64.ofNat (nearestBits num den + if negative then Nat.pow 2 63 else 0))

/-- The floating-point number nearest to an integer, unless the integer is beyond the largest one. -/
def ofInt? (i : Int) : Option Float :=
  let x := nearest (i < 0) i.natAbs 1
  if x.isInf then none else some x

/-- The fraction of natural numbers that a binary fraction stands for, sign aside. -/
def Binary.ratio (b : Binary) : Nat × Nat :=
  shifted b.mantissa 1 b.exponent

/-- The number that a binary fraction stands for. -/
def Binary.value (b : Binary) : Rat :=
  let (n, d) := b.ratio
  mkRat (if b.negative then -(n : Int) else n) d

/-- The integer that remains when the fractional part is dropped. -/
def Binary.truncate (b : Binary) : Int :=
  let (n, d) := b.ratio
  let q : Int := (n / d : Nat)
  if b.negative then -q else q

/-- The greatest integer that is not above the number. -/
def Binary.floor (b : Binary) : Int :=
  let (n, d) := b.ratio
  Int.fdiv (if b.negative then -(n : Int) else n) d

/-- The nearest integer, a tie going to the even one. -/
def Binary.round (b : Binary) : Int :=
  let (n, d) := b.ratio
  let q : Int := roundDiv n d
  if b.negative then -q else q

/-- Compares a binary fraction with an integer. -/
def Binary.compareInt (b : Binary) (i : Int) : Ordering :=
  let (n, d) := b.ratio
  compare (if b.negative then -(n : Int) else n) (i * d)

/-! ## The shortest decimal -/

/-- Decimal digits and the power of ten of the last one: `digits * 10 ^ exponent`. -/
structure Scaled where
  digits : Nat
  exponent : Int
  deriving Repr, DecidableEq

/-- A fraction with the power of ten moved to the numerator or the denominator. -/
def shiftedTen (num den : Nat) (power : Int) : Nat × Nat :=
  if 0 ≤ power then (num * Nat.pow 10 power.toNat, den)
  else (num, den * Nat.pow 10 (-power).toNat)

/-- The integer part of the base-ten logarithm of a positive fraction. -/
def log10Ratio (num den : Nat) : Int :=
  let estimate := log2Ratio num den * 30103 / 100000
  let reaches (e : Int) : Bool :=
    let (n, d) := shiftedTen num den (-e)
    d ≤ n
  if reaches (estimate + 1) then estimate + 1
  else if reaches estimate then estimate
  else estimate - 1

/-- The interval of reals that round to a positive number, over a common denominator, with whether its
ends belong to it. -/
structure Interval where
  low : Nat
  value : Nat
  high : Nat
  den : Nat
  closed : Bool

/-- The interval of a positive binary fraction that is a floating-point number. Below a power of two
the neighbour is only half as far away. -/
def Binary.interval (b : Binary) : Interval :=
  let below := if b.mantissa = Nat.pow 2 52 && -1074 < b.exponent then 1 else 2
  let (scale, den) := shifted 1 1 (b.exponent - 2)
  ⟨(4 * b.mantissa - below) * scale, 4 * b.mantissa * scale, (4 * b.mantissa + 2) * scale, den,
    b.mantissa % 2 = 0⟩

/-- The point of the grid of step `10 ^ exponent` that is nearest to the value among the two neighbours
that lie in the interval. -/
def Interval.onGrid? (i : Interval) (exponent : Int) : Option Scaled :=
  let (unit, den) := shiftedTen i.den 1 exponent
  let low := i.low * den
  let value := i.value * den
  let high := i.high * den
  let inside (n : Nat) : Bool :=
    if i.closed then low ≤ n && n ≤ high else low < n && n < high
  let down := value / unit
  let up := down + 1
  let downIn := 0 < down && inside (down * unit)
  let upIn := inside (up * unit)
  if downIn && upIn then
    let toDown := value - down * unit
    let toUp := up * unit - value
    some ⟨if toDown < toUp || (toDown = toUp && down % 2 = 0) then down else up, exponent⟩
  else if downIn then some ⟨down, exponent⟩
  else if upIn then some ⟨up, exponent⟩
  else none

/-- Tries the grids in turn, the coarsest first; the value itself ends the search. -/
def Interval.search (i : Interval) (lead : Int) : Nat → Nat → Scaled
  | 0, n => ⟨roundDiv i.value i.den, lead - n + 1⟩
  | fuel + 1, n =>
    match i.onGrid? (lead - n + 1) with
    | some s => s
    | none => i.search lead fuel (n + 1)

/-- Drops trailing zeros of the digits. -/
def Scaled.normalize (s : Scaled) : Nat → Scaled
  | 0 => s
  | fuel + 1 =>
    if s.digits ≠ 0 && s.digits % 10 = 0 then Scaled.normalize ⟨s.digits / 10, s.exponent + 1⟩ fuel
    else s

/-- The shortest decimal that rounds to a positive floating-point number. -/
def Binary.shortest (b : Binary) : Scaled :=
  let i := b.interval
  (i.search (log10Ratio i.value i.den) 17 1).normalize 20

end Stencil.Decimal
