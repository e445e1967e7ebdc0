import Stencil.Script.Value.Number
import Stencil.Text.Letter
import Stencil.Text.Case
import Stencil.Text.Quoted

/-!
# Numerals

Reads integers in a base and floating-point numbers from text, and writes integers in a base. Blanks
around a numeral are ignored and single underscores may stand between digits.
-/

namespace Stencil.Script.Numeral

/-- The greatest number of decimal digits that an integer may have to be read or written. -/
def digitLimit : Nat := 4300

/-- The value of a character as a digit. -/
def digit? (c : Char) : Option Nat :=
  if 'a' ≤ c && c ≤ 'z' then some (c.toNat - 'a'.toNat + 10)
  else if 'A' ≤ c && c ≤ 'Z' then some (c.toNat - 'A'.toNat + 10)
  else Text.decimalValue? c

/-- Reads digits of a base; `after` tells whether an underscore may come next. -/
def readDigits? (base : Nat) : Bool → Nat → Text → Option Nat
  | after, acc, [] => if after then some acc else none
  | after, acc, c :: r =>
    if c = '_' then if after then readDigits? base false acc r else none
    else (digit? c).bind fun d =>
      if d < base then readDigits? base true (acc * base + d) r else none

/-- The base that a prefix announces. -/
def baseOfPrefix? : Text → Option Nat
  | '0' :: c :: _ =>
    if c = 'x' || c = 'X' then some 16
    else if c = 'o' || c = 'O' then some 8
    else if c = 'b' || c = 'B' then some 2
    else none
  | _ => none

/-- Splits a sign off a text. -/
def splitSign : Text → Bool × Text
  | '-' :: r => (true, r)
  | '+' :: r => (false, r)
  | r => (false, r)

/-- The unsigned numeral of a base; base zero goes by the prefix. -/
def readMagnitude? (base : Nat) (t : Text) : Option Nat :=
  let announced := baseOfPrefix? t
  if base = 0 then
    match announced with
    | some b => readDigits? b (t.drop 2 |>.head? |>.any (· = '_')) 0 (t.drop 2)
    | none =>
      (readDigits? 10 false 0 t).bind fun n =>
        if t.head? = some '0' && n ≠ 0 then none else some n
  else if announced = some base then
    readDigits? base (t.drop 2 |>.head? |>.any (· = '_')) 0 (t.drop 2)
  else readDigits? base false 0 t

/-- The integer that a text denotes in a base. -/
def readInt (base : Nat) (s : String) : Except Failure Int :=
  let (negative, t) := splitSign (Text.trim s.toList)
  match readMagnitude? base t with
  | some n =>
    let count := (t.filter fun c => (digit? c).isSome).length
    if base = 10 && digitLimit < count then
      valueError (s!"Exceeds the limit ({digitLimit} digits) for integer string conversion: " ++
        s!"value has {count} digits; use sys.set_int_max_str_digits() to increase the limit")
    else .ok (if negative then -n else n)
  | none =>
    valueError s!"invalid literal for int() with base {base}: {Text.quotedString s}"

/-- The digits of a text whose underscores stand between digits. -/
def plainDigits? : Bool → Text → Option Text
  | _, [] => some []
  | after, '_' :: c :: r =>
    if after && (Text.decimalValue? c).isSome then plainDigits? false (c :: r) else none
  | after, c :: r =>
    if c = '_' then none
    else
      match Text.decimalValue? c with
      | some d => (plainDigits? true r).map (Char.ofNat (0x30 + d) :: ·)
      | none => (plainDigits? (after && false) r).map (c :: ·)

/-- The magnitude of a floating-point numeral. -/
def readFloatMagnitude? (negative : Bool) (t : Text) : Option Float :=
  let word := String.ofList (Text.lower t)
  if word = "inf" || word = "infinity" then
    some (if negative then -(1.0 / 0.0) else 1.0 / 0.0)
  else if word = "nan" then some (0.0 / 0.0)
  else (plainDigits? false t).bind fun t =>
    let (whole, r) := Decimal.spanDigits t
    let (fraction, r) := match r with
      | '.' :: r' =>
        let (f, r'') := Decimal.spanDigits r'
        (some f, r'')
      | _ => (none, r)
    if whole.isEmpty && (fraction.getD []).isEmpty then none
    else
      let (power, r) := Decimal.readPower r
      if r.isEmpty then
        let n : Decimal.Numeral := ⟨whole, fraction, power⟩
        some (n.value negative)
      else none

/-- The floating-point number that a text denotes. -/
def readFloat (s : String) : Except Failure Float :=
  let (negative, t) := splitSign (Text.trim s.toList)
  match readFloatMagnitude? negative t with
  | some x => .ok x
  | none => valueError s!"could not convert string to float: {Text.quotedString s}"

/-- The digits of a natural number in a base up to 16, in lower case. -/
def digitsIn (base n : Nat) : Text :=
  Nat.toDigits base n

/-- An integer in a base behind the prefix of the base. -/
def written (mark : String) (base : Nat) (i : Int) : String :=
  (if i < 0 then "-" else "") ++ mark ++ String.ofList (digitsIn base i.natAbs)

/-- An integer in decimal notation, unless it has too many digits. -/
def decimal (i : Int) : Except Failure String :=
  if Nat.log2 i.natAbs < 3 * digitLimit || i.natAbs < Nat.pow 10 digitLimit then .ok (toString i)
  else valueError (s!"Exceeds the limit ({digitLimit} digits) for integer string conversion; " ++
    "use sys.set_int_max_str_digits() to increase the limit")

end Stencil.Script.Numeral
