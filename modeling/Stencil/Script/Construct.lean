import Stencil.Script.Builtin

/-!
# Making values of built-in kinds

A kind that is called makes a value of itself, most often from another value: an integer from a
numeral, a list from the items of something, an exception from the values it carries.
-/

namespace Stencil.Script.Construct

/-- Raises an exception when named arguments are given to a kind. -/
def noNamed (k : Kind) (named : Members) : Run Unit := do
  if !named.isEmpty then Run.typeError s!"{k.name}() takes no keyword arguments"

/-- The only argument of a kind, which may be missing. -/
def atMostOne (k : Kind) (args : List Value) : Run (Option Value) := do
  Arguments.between k.name 0 1 args
  return args.head?

/-- Bytes read as characters of the same codes. -/
def latin (b : List Nat) : String :=
  String.ofList (b.map Char.ofNat)

/-- A string from bytes in an encoding. -/
def read (v encoding : Value) : Run Value := do
  match encoding with
  | .str _ =>
    match v with
    | .bytes b => return .str (latin b)
    | .str _ => Run.typeError "decoding str is not supported"
    | _ => Run.typeError s!"decoding to str: need a bytes-like object, {← Run.kindName v} found"
  | _ => Run.typeError s!"str() argument 'encoding' must be str, not {← Arguments.givenName encoding}"

/-- An integer from a number or a numeral. -/
def int (ops : Ops) (args : List Value) (named : Members) : Run Value := do
  let values ← Arguments.Signature.take ⟨"int", ["", "base"], 0, 2⟩ args named
  match args.head?, values[1]?.join with
  | none, none => return .int 0
  | none, some _ => Run.typeError "int() missing string argument"
  | some v, none =>
    match v with
    | .str s => return .int (← Run.lift (Numeral.readInt 10 s))
    | .bytes b => return .int (← Run.lift (Numeral.readInt 10 (latin b)))
    | .float x => return .int (← Run.lift (Number.wholeOf Decimal.Binary.truncate x))
    | _ =>
      match v.int? with
      | some i => return .int i
      | none =>
        match ← ops.special? v "__int__" [] with
        | some r => return r
        | none =>
          Run.typeError ("int() argument must be a string, a bytes-like object or a real number, " ++
            s!"not '{← Run.kindName v}'")
  | some v, some base =>
    let base ← Arguments.integer base
    if base ≠ 0 && (base < 2 || 36 < base) then
      Run.valueError "int() base must be >= 2 and <= 36, or 0"
    match v with
    | .str s => return .int (← Run.lift (Numeral.readInt base.toNat s))
    | .bytes b => return .int (← Run.lift (Numeral.readInt base.toNat (latin b)))
    | _ => Run.typeError "int() can't convert non-string with explicit base"

/-- A floating-point number from a number or a numeral. -/
def float (ops : Ops) (args : List Value) : Run Value := do
  match ← atMostOne .float args with
  | none => return .float 0
  | some v =>
    match v with
    | .str s => return .float (← Run.lift (Numeral.readFloat s))
    | _ =>
      match v.number? with
      | some n => return .float (← Run.lift n.toFloat)
      | none =>
        match ← ops.special? v "__float__" [] with
        | some r => return r
        | none =>
          Run.typeError ("float() argument must be a string or a real number, " ++
            s!"not '{← Run.kindName v}'")

/-- The items of an argument that may be missing. -/
def itemsOf (ops : Ops) (k : Kind) (args : List Value) : Run (List Value) := do
  match ← atMostOne k args with
  | none => return []
  | some v => Iterate.items ops v

/-- A range from its bounds and its step. -/
def range (args : List Value) : Run Value := do
  Arguments.between "range" 1 3 args
  match ← args.mapM Arguments.integer with
  | [stop] => return .range 0 stop 1
  | [start, stop] => return .range start stop 1
  | start :: stop :: step :: _ =>
    if step = 0 then Run.valueError "range() arg 3 must not be zero"
    else return .range start stop step
  | [] => return .none

/-- An iterator over the entries of a dictionary from the back. -/
def backwards (what : View) (a : Address) : Run Value := do
  let name := match what with
    | .keys => "dict_reversekeyiterator"
    | .values => "dict_reversevalueiterator"
    | .items => "dict_reverseitemiterator"
  Iterate.new (.items (.foreign name) ((← Run.entries a).reverse.map (Iterate.shown what)))

/-- An iterator over a value from the back. -/
def reversed (ops : Ops) (v : Value) : Run Value := do
  let refuse : Run Value := do
    Run.typeError s!"'{← Run.kindName v}' object is not reversible"
  match v with
  | .str s => Iterate.new (.items .reversed (Iterate.characters s).reverse)
  | .tuple vs => Iterate.new (.items .reversed vs.reverse)
  | .range a b c =>
    let n : Int := rangeLength a b c
    Iterate.new (.range (a + (n - 1) * c) (a - c) (-c))
  | .view what a => backwards what a
  | .ref a =>
    match ← Run.object? a with
    | some (.list xs) => Iterate.new (.listBack a xs.size)
    | some (.dict _) => backwards .keys a
    | some (.instance _) =>
      match ← ops.special? v "__reversed__" [] with
      | some r => return r
      | none => refuse
    | _ => refuse
  | _ => refuse

/-- An iterator that numbers the items of a value. -/
def enumerate (ops : Ops) (args : List Value) (named : Members) : Run Value := do
  if args.isEmpty && named.isEmpty then
    Run.typeError "enumerate() missing required argument 'iterable'"
  let values ← Arguments.Signature.take ⟨"enumerate", ["iterable", "start"], 1, 2⟩ args named
  let start ← match values[1]?.join with
    | some n => Arguments.integer n
    | none => pure 0
  Iterate.new (.enumerate (← Iterate.start ops (values.head?.join.getD .none)) start)

/-- A new object of a class. -/
def instanceOf (cls : Value) (args : List Value) : Run Value :=
  Run.alloc (.instance ⟨cls, [], args, none⟩)

/-- Makes a value of a kind. -/
def call (ops : Ops) (k : Kind) (args : List Value) (named : Members) : Run Value := do
  let first := args.headD .none
  match k with
  | .int => int ops args named
  | .float =>
    noNamed k named
    float ops args
  | .str =>
    match ← Arguments.Signature.take ⟨"str", ["object", "encoding", "errors"], 0, 3⟩ args named with
    | some v :: some encoding :: _ => read v encoding
    | some v :: _ => return .str (← ops.str v)
    | _ => return .str ""
  | .bool =>
    noNamed k named
    match ← atMostOne k args with
    | none => return .bool false
    | some v => return .bool (← ops.truthy v)
  | .bytes =>
    match first, first.int? with
    | .bytes _, _ => return first
    | .str _, _ => Run.typeError "string argument without an encoding"
    | _, some n =>
      if n < 0 then Run.valueError "negative count" else return .bytes (List.replicate n.toNat 0)
    | _, none =>
      let vs ← itemsOf ops k args
      let ns ← vs.mapM Arguments.integer
      if ns.any fun n => n < 0 || 255 < n then Run.valueError "bytes must be in range(0, 256)"
      return .bytes (ns.map Int.toNat)
  | .list =>
    noNamed k named
    Run.newList (← itemsOf ops k args)
  | .tuple =>
    noNamed k named
    return .tuple (← itemsOf ops k args)
  | .set | .frozenSet =>
    noNamed k named
    let vs ← itemsOf ops k args
    vs.forM Item.checkKey
    Run.alloc (.set (k == .frozenSet) (Operator.distinct vs))
  | .dict =>
    let d ← Run.newDict []
    match d with
    | .ref a => DictMethod.fill ops "dict" a args named
    | _ => pure ()
    return d
  | .range =>
    noNamed k named
    range args
  | .slice =>
    noNamed k named
    Arguments.between "slice" 1 3 args
    match args with
    | [stop] => return .slice .none stop .none
    | _ => return .slice first (args.getD 1 .none) (args.getD 2 .none)
  | .enumerate => enumerate ops args named
  | .zip =>
    Arguments.onlyNamed "zip" ["strict"] named
    let strict ← match named.find? "strict" with
      | some v => ops.truthy v
      | none => pure false
    Iterate.new (.zip (← args.mapM (Iterate.start ops)) strict)
  | .map =>
    noNamed k named
    if args.length < 2 then Run.typeError "map() must have at least two arguments."
    Iterate.new (.map first (← (args.drop 1).mapM (Iterate.start ops)))
  | .filter =>
    noNamed k named
    Arguments.between "filter" 2 2 args
    Iterate.new (.filter first (← Iterate.start ops (args.getD 1 .none)))
  | .reversed =>
    noNamed k named
    Arguments.between "reversed" 1 1 args
    reversed ops first
  | .type =>
    noNamed k named
    match args with
    | [v] => Run.classOf v
    | _ => Run.typeError "type() takes 1 or 3 arguments"
  | .object =>
    if args.isEmpty && named.isEmpty then instanceOf (.kind .object) []
    else Run.typeError "object() takes no arguments"
  | .exception e =>
    noNamed k named
    instanceOf (.kind (.exception e)) args
  | .property | .staticMethod | .classMethod => return .wrapped k first
  | _ => Run.typeError s!"cannot create '{k.name}' instances"

end Stencil.Script.Construct
