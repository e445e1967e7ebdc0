import Stencil.Script.Value.Basic

/-!
# Arithmetic

Integers are exact and unbounded, floating-point numbers round to the nearest. Division rounds toward
the floor, a remainder has the sign of the divisor, and the quotient of two integers is the
floating-point number nearest to the exact quotient.
-/

namespace Stencil.Script

namespace Number

/-- An integer as a floating-point number, unless it is too large. -/
def floatOfInt (i : Int) : Except Failure Float :=
  match Decimal.ofInt? i with
  | some x => .ok x
  | none => failWith .overflowError "int too large to convert to float"

/-- A number as a floating-point number. -/
def toFloat : Number → Except Failure Float
  | int i => floatOfInt i
  | float x => .ok x

/-- Whether a number is zero. -/
def isZero : Number → Bool
  | int i => i == 0
  | float x => x == 0

/-- A number as a value. -/
def toValue : Number → Value
  | int i => .int i
  | float x => .float x

/-- Whether a floating-point number has no fractional part. -/
def isWhole (x : Float) : Bool :=
  x.floor == x

/-- The bits of `a` that are clear in `b`. -/
def clearBits (a b : Nat) : Nat :=
  a - (a &&& b)

/-- The bits that two integers share, negative ones with infinitely many leading ones. -/
def bitAnd : Int → Int → Int
  | .ofNat a, .ofNat b => .ofNat (a &&& b)
  | .ofNat a, .negSucc b => .ofNat (clearBits a b)
  | .negSucc a, .ofNat b => .ofNat (clearBits b a)
  | .negSucc a, .negSucc b => .negSucc (a ||| b)

/-- The bits that one of two integers has. -/
def bitOr (a b : Int) : Int :=
  -(bitAnd (-a - 1) (-b - 1)) - 1

/-- The bits that exactly one of two integers has. -/
def bitXor (a b : Int) : Int :=
  bitOr a b - bitAnd a b

/-- The remainder of a division toward zero of two finite numbers, exactly. -/
def truncatedRemainder (x y : Decimal.Binary) : Nat × Nat :=
  let (n, d) := x.ratio
  let (m, e) := y.ratio
  ((n * e) % (m * d), d * e)

/-- The remainder of a division of floating-point numbers toward zero; it has the sign of the first. -/
def floatRemainder (x y : Float) : Float :=
  match Decimal.ofFloat? x, Decimal.ofFloat? y with
  | some a, some b =>
    let (n, d) := truncatedRemainder a b
    Decimal.nearest a.negative n d
  | some _, none => if y.isNaN then y else x
  | none, _ => 0.0 / 0.0

/-- A zero with the sign of a number. -/
def zeroLike (x : Float) : Float :=
  Decimal.nearest (Decimal.signBit x) 0 1

/-- Quotient and remainder of floating-point numbers: the quotient is whole and the remainder has the
sign of the divisor. -/
def floatDivMod (x y : Float) : Float × Float :=
  let r := floatRemainder x y
  let q := (x - r) / y
  let (q, r) :=
    if r == 0 then (q, zeroLike y)
    else if (y < 0) != (r < 0) then (q - 1, r + y)
    else (q, r)
  let whole :=
    if q == 0 then zeroLike (x / y)
    else
      let f := q.floor
      if 0.5 < q - f then f + 1 else f
  (whole, r)

/-- The exact quotient of two integers, rounded to the nearest floating-point number. -/
def quotient (a b : Int) : Except Failure Value :=
  if b = 0 then failWith .zeroDivisionError "division by zero"
  else
    let x := Decimal.nearest ((a < 0) != (b < 0)) a.natAbs b.natAbs
    if x.isInf then failWith .overflowError "integer division result too large for a float"
    else .ok (.float x)

/-- The text of a complex number. -/
def complexText (re im : Float) : String :=
  let part (x : Float) : Text :=
    let t := (Decimal.floatText x).toList
    if ['.', '0'].isSuffixOf t then t.take (t.length - 2) else t
  let imaginary := part im ++ ['j']
  if re.toBits == 0 then String.ofList imaginary
  else
    let sign : Text := if imaginary.head? = some '-' then [] else ['+']
    "(" ++ String.ofList (part re ++ sign ++ imaginary) ++ ")"

/-- A negative number raised to a power that is not whole, which is a complex number. -/
def complexPower (x y : Float) : Value :=
  let magnitude := (-x).pow y
  let phase := Float.atan2 0 x * y
  let text := complexText (magnitude * phase.cos) (magnitude * phase.sin)
  .foreign "complex" text text

/-- A floating-point number raised to a power. -/
def floatPower (x y : Float) : Except Failure Value :=
  if x == 0 && y < 0 then
    failWith .zeroDivisionError "0.0 cannot be raised to a negative power"
  else if x < 0 && !x.isInf && !y.isInf && !y.isNaN && y.floor != y then .ok (complexPower x y)
  else
    let r := x.pow y
    if r.isInf && !x.isInf && !y.isInf then
      .error ⟨.overflowError, [.int 34, .str "Numerical result out of range"]⟩
    else .ok (.float r)

/-- A power of an integer modulo a positive number. -/
def powerMod (modulus : Nat) : Nat → Nat → Nat → Nat → Nat
  | 0, _, _, acc => acc
  | _, _, 0, acc => acc
  | fuel + 1, base, e, acc =>
    powerMod modulus fuel (base * base % modulus) (e / 2)
      (if e % 2 = 1 then acc * base % modulus else acc)

/-- A shift of an integer, toward higher bits or lower ones. -/
def shift (up : Bool) (a n : Int) : Except Failure Value :=
  if n < 0 then valueError "negative shift count"
  else if up then
    if a = 0 then .ok (.int 0)
    else if Int.pow 2 63 ≤ n then failWith .overflowError "too many digits in integer"
    else if roomLimit < n then .error ⟨.memoryError, []⟩
    else .ok (.int (a * Int.pow 2 n.toNat))
  else .ok (.int (if (Nat.log2 a.natAbs : Int) + 1 < n then (if a < 0 then -1 else 0)
    else a.fdiv (Int.pow 2 n.toNat)))

/-- Whether an operator applies to floating-point numbers. -/
def appliesToFloats : BinaryOp → Bool
  | .add | .sub | .mul | .div | .floorDiv | .mod | .pow => true
  | _ => false

/-- An operation on two floating-point numbers; operators that do not apply give nothing. -/
def floatOp (op : BinaryOp) (x y : Float) : Except Failure Value :=
  match op with
  | .add => .ok (.float (x + y))
  | .sub => .ok (.float (x - y))
  | .mul => .ok (.float (x * y))
  | .div =>
    if y == 0 then failWith .zeroDivisionError "float division by zero" else .ok (.float (x / y))
  | .floorDiv =>
    if y == 0 then failWith .zeroDivisionError "float floor division by zero"
    else .ok (.float (floatDivMod x y).1)
  | .mod =>
    if y == 0 then failWith .zeroDivisionError "float modulo"
    else .ok (.float (floatDivMod x y).2)
  | .pow => floatPower x y
  | _ => .ok .none

/-- A power of an integer; those of zero and one need no multiplication. -/
def power (a : Int) (n : Nat) : Int :=
  if a.natAbs ≤ 1 then (if n = 0 then 1 else if a = -1 && n % 2 = 0 then 1 else a) else Int.pow a n

/-- An operation on two integers. -/
def intOp (op : BinaryOp) (a b : Int) : Option (Except Failure Value) :=
  match op with
  | .add => some (.ok (.int (a + b)))
  | .sub => some (.ok (.int (a - b)))
  | .mul => some (.ok (.int (a * b)))
  | .div => some (quotient a b)
  | .floorDiv =>
    some (if b = 0 then failWith .zeroDivisionError "integer division or modulo by zero"
      else .ok (.int (a.fdiv b)))
  | .mod =>
    some (if b = 0 then failWith .zeroDivisionError "integer modulo by zero"
      else .ok (.int (a.fmod b)))
  | .pow =>
    some (if 1 < a.natAbs && roomLimit < b * Nat.log2 a.natAbs then .error ⟨.memoryError, []⟩
      else if 0 ≤ b then .ok (.int (power a b.toNat))
      else do floatPower (← floatOfInt a) (← floatOfInt b))
  | .shiftLeft => some (shift true a b)
  | .shiftRight => some (shift false a b)
  | .bitAnd => some (.ok (.int (bitAnd a b)))
  | .bitOr => some (.ok (.int (bitOr a b)))
  | .bitXor => some (.ok (.int (bitXor a b)))
  | .matMul => none

/-- An operation on two numbers, if there is one. An integer beside a floating-point number is made
one. -/
def binary? (op : BinaryOp) : Number → Number → Option (Except Failure Value)
  | int a, int b => intOp op a b
  | a, b =>
    if appliesToFloats op then some do
      let x ← a.toFloat
      let y ← b.toFloat
      floatOp op x y
    else none

end Number

/-- An operation on two values that are numbers. Truth values stay truth values under the operations on
bits. -/
def Value.arithmetic? (op : BinaryOp) (a b : Value) : Option (Except Failure Value) :=
  match op, a, b with
  | .bitAnd, .bool x, .bool y => some (.ok (.bool (x && y)))
  | .bitOr, .bool x, .bool y => some (.ok (.bool (x || y)))
  | .bitXor, .bool x, .bool y => some (.ok (.bool (x != y)))
  | _, _, _ =>
    match a.number?, b.number? with
    | some x, some y => Number.binary? op x y
    | _, _ => Option.none

namespace Number

/-- An integer without the digits below a power of ten, rounded half to even. -/
def roundTo (i : Int) (power : Nat) : Int :=
  let unit := Nat.pow 10 power
  let q : Int := Decimal.roundDiv i.natAbs unit * unit
  if i < 0 then -q else q

/-- A floating-point number rounded half to even to a number of decimal places. -/
def roundPlaces (x : Float) (places : Int) : Float :=
  match Decimal.ofFloat? x with
  | none => x
  | some b =>
    if 323 < places then x
    else if places < -309 then zeroLike x
    else
      let (n, d) := b.ratio
      let (n', d') := Decimal.shiftedTen n d places
      let (m, e) := Decimal.shiftedTen (Decimal.roundDiv n' d') 1 (-places)
      Decimal.nearest b.negative m e

/-- A floating-point number as an integer: dropping the fraction, or rounding. -/
def wholeOf (f : Decimal.Binary → Int) (x : Float) : Except Failure Int :=
  match Decimal.ofFloat? x with
  | some b => .ok (f b)
  | none =>
    if x.isNaN then valueError "cannot convert float NaN to integer"
    else failWith .overflowError "cannot convert float infinity to integer"

end Number

end Stencil.Script
