import Stencil.Script.Format.Spec
import Stencil.Script.Item

/-!
# Percent formats

A percent format is a text with directives such as `%05.2f`, each of which takes the next value, or the
value under a key of a mapping. All values must be taken, unless they come from a mapping.
-/

namespace Stencil.Script.Percent

/-- A directive: the key of its value, its flags, and its width and precision, which may themselves be
taken from the values. -/
structure Directive where
  left : Bool
  sign : Char
  alternate : Bool
  zeros : Bool

/-- Where the values of a format come from: a list of those not yet taken, whether taking more than one
is allowed, and the mapping, if the value is one. -/
structure Supply where
  rest : List Value
  mapping : Option Value

/-- Takes the next value. -/
def take (s : Supply) : Run (Value × Supply) := do
  match s.rest with
  | v :: rest => return (v, { s with rest })
  | [] => Run.typeError "not enough arguments for format string"

/-- Reads the flags of a directive. -/
def readFlags (d : Directive) : Text → Directive × Text
  | '-' :: r => readFlags { d with left := true } r
  | '+' :: r => readFlags { d with sign := '+' } r
  | ' ' :: r => readFlags { d with sign := if d.sign = '+' then '+' else ' ' } r
  | '#' :: r => readFlags { d with alternate := true } r
  | '0' :: r => readFlags { d with zeros := true } r
  | t => (d, t)

/-- Reads the key of a directive up to its closing parenthesis. -/
def readKey : Nat → Text → Option (Text × Text)
  | _, [] => none
  | depth, c :: r =>
    if c = ')' then
      match depth with
      | 0 => some ([], r)
      | n + 1 => (readKey n r).map fun (k, r') => (c :: k, r')
    else if c = '(' then (readKey (depth + 1) r).map fun (k, r') => (c :: k, r')
    else (readKey depth r).map fun (k, r') => (c :: k, r')

/-- Reads a number that is written out or taken from the values. -/
def readCount (s : Supply) (t : Text) : Run (Option Int × Supply × Text) := do
  match t with
  | '*' :: r =>
    let (v, s) ← take s
    match v.int? with
    | some i => return (some i, s, r)
    | none => Run.typeError "* wants int"
  | _ =>
    match Decimal.spanDigits t with
    | ([], r) => return (none, s, r)
    | (ds, r) => return (some (Decimal.ofDigits ds), s, r)

/-- Fills a text up to a width; zeros go behind the sign and the mark of the base. -/
def filled (d : Directive) (width : Nat) (numeric : Bool) (front body : Text) : Text :=
  let missing := width - front.length - body.length
  if d.left then front ++ body ++ List.replicate missing ' '
  else if d.zeros && numeric then front ++ List.replicate missing '0' ++ body
  else List.replicate missing ' ' ++ front ++ body

/-- The sign of a number. -/
def signText (d : Directive) (negative : Bool) : Text :=
  if negative then ['-'] else if d.sign = '\x00' then [] else [d.sign]

/-- Raises the exception for a value that is no number. -/
def needsNumber {α : Type} (code : Char) (what : String) (v : Value) : Run α := do
  Run.typeError s!"%{code} format: {what} is required, not {← Run.kindName v}"

/-- An integer as the value of a directive for integers. -/
def integerOf (code : Char) (v : Value) : Run Int := do
  match v with
  | .float x =>
    if code = 'd' || code = 'i' || code = 'u' then Run.lift (Number.wholeOf Decimal.Binary.truncate x)
    else needsNumber code "an integer" v
  | _ =>
    match v.int? with
    | some i => return i
    | none =>
      needsNumber code (if code = 'd' || code = 'i' || code = 'u' then "a real number" else "an integer") v

/-- Writes an integer. -/
def writeInt (d : Directive) (width : Nat) (precision : Option Nat) (code : Char) (i : Int) : Text :=
  let digits := Decimal.padZeros (precision.getD 0) (FormatSpec.intDigits code i.natAbs)
  let mark : Text := if d.alternate && ['o', 'x', 'X'].contains code then ['0', code] else []
  filled d width true (signText d (i < 0) ++ mark) digits

/-- Writes a floating-point number. -/
def writeFloat (d : Directive) (width : Nat) (precision : Option Nat) (code : Char) (x : Float) :
    Except Failure Text := do
  let spec : FormatSpec := ⟨' ', '>', '\x00', false, d.alternate, 0, none, some (precision.getD 6), code⟩
  let (digits, after) ← spec.floatParts x
  return filled d width (!(x.isNaN || x.isInf)) (signText d (Decimal.signBit x && !x.isNaN)) (digits ++ after)

/-- A number as the value of a directive for floating-point numbers. -/
def floatOf (v : Value) : Run Float := do
  match v.number? with
  | some n => Run.lift n.toFloat
  | none => Run.typeError s!"must be real number, not {← Run.kindName v}"

/-- The character of a directive for characters. -/
def characterOf (v : Value) : Run Text := do
  match v with
  | .str s =>
    match s.toList with
    | [c] => return [c]
    | _ => Run.typeError "%c requires int or char"
  | _ =>
    match v.int? with
    | some i =>
      if i < 0 || 0x10ffff < i then Run.failWith .overflowError "%c arg not in range(0x110000)"
      else return [Char.ofNat i.toNat]
    | none => Run.typeError "%c requires int or char"

/-- Writes one value. -/
def write (ops : Ops) (d : Directive) (width : Nat) (precision : Option Nat) (code : Char)
    (v : Value) : Run Text := do
  let cut (s : String) : Text :=
    filled d width false [] (match precision with
      | some n => s.toList.take n
      | none => s.toList)
  match code with
  | 's' => return cut (← ops.str v)
  | 'r' => return cut (← ops.repr v)
  | 'a' => return cut (String.ofList (Text.asciiOnly (← ops.repr v).toList))
  | 'c' => return filled d width false [] (← characterOf v)
  | 'd' | 'i' | 'u' | 'o' | 'x' | 'X' =>
    return writeInt d width precision code (← integerOf code v)
  | _ => Run.lift (writeFloat d width precision code (← floatOf v))

/-- Whether a letter is the code of a directive. -/
def isCode (c : Char) : Bool :=
  "sracdiuoxXeEfFgG".toList.contains c

/-- Writes a format from a position on. -/
def writeFrom (ops : Ops) : Nat → Supply → Nat → Text → Run (Text × Supply)
  | 0, s, _, _ => return ([], s)
  | _, s, _, [] => return ([], s)
  | fuel + 1, s, total, '%' :: r => do
    let (key, r) ← match r with
      | '(' :: r' =>
        match readKey 0 r' with
        | some (k, r'') => pure (some k, r'')
        | none => Run.valueError "incomplete format key"
      | _ => pure (none, r)
    let s ← match key with
      | none => pure s
      | some k =>
        match s.mapping with
        | none => Run.typeError "format requires a mapping"
        | some m =>
          let v ← Item.get ops m (.str (String.ofList k))
          pure { s with rest := [v] }
    let (d, r) := readFlags ⟨false, '\x00', false, false⟩ r
    let (width, s, r) ← readCount s r
    let d := if (width.getD 0) < 0 then { d with left := true } else d
    let (precision, s, r) ← match r with
      | '.' :: r' => do
        let (p, s, r'') ← readCount s r'
        pure (some (p.getD 0).toNat, s, r'')
      | _ => pure (none, s, r)
    Run.lift (checkRoom (max (width.getD 0).natAbs (precision.getD 0)))
    let r := match r with
      | c :: r' => if c = 'h' || c = 'l' || c = 'L' then r' else r
      | [] => []
    match r with
    | [] => Run.valueError "incomplete format"
    | '%' :: r' =>
      let (t, s) ← writeFrom ops fuel s total r'
      return ('%' :: t, s)
    | c :: r' =>
      if !isCode c then
        Run.valueError (s!"unsupported format character '{c}' " ++
          s!"(0x{String.ofList (Numeral.digitsIn 16 c.toNat)}) at index {total - r.length}")
      else
        let (v, s) ← take s
        let written ← write ops d (width.getD 0).natAbs precision c v
        let (t, s) ← writeFrom ops fuel s total r'
        return (written ++ t, s)
  | fuel + 1, s, total, c :: r => do
    let (t, s) ← writeFrom ops fuel s total r
    return (c :: t, s)

/-- Whether a value gives items by keys or indices, so that it may serve as a mapping. -/
def hasItems (v : Value) : Run Bool := do
  match v with
  | .range _ _ _ | .bytes _ => return true
  | .ref a =>
    match ← Run.object? a with
    | some (.dict _) | some (.list _) => return true
    | some (.instance i) => return (Item.bindingsOf? i).isSome || (← Run.special? v "__getitem__").isSome
    | _ => return false
  | _ => return false

/-- Writes a format with a value, which is a mapping, a tuple of values, or the only value. -/
def format (ops : Ops) (t : Text) (v : Value) : Run String := do
  let mapping := if ← hasItems v then some v else none
  let supply : Supply := match v with
    | .tuple vs => ⟨vs, none⟩
    | _ => ⟨[v], mapping⟩
  let (written, left) ← writeFrom ops (t.length + 1) supply t.length t
  if !left.rest.isEmpty && left.mapping.isNone then
    Run.typeError "not all arguments converted during string formatting"
  return String.ofList written

end Stencil.Script.Percent
