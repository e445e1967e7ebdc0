import Stencil.Script.Member

/-!
# Built-in functions

The functions that every script can call by name.
-/

namespace Stencil.Script.Builtin

/-- The number of items of a value. -/
def length (ops : Ops) (v : Value) : Run Int := do
  let refuse : Run Int := do
    Run.typeError s!"object of type '{← Run.kindName v}' has no len()"
  match v with
  | .str s => return s.length
  | .bytes b => return b.length
  | .tuple vs => return vs.length
  | .range a b c => Arguments.size (.int (rangeLength a b c))
  | .view _ a => return (← Run.entries a).length
  | .ref a =>
    match ← Run.object? a with
    | some (.list xs) => return xs.size
    | some (.dict es) => return es.length
    | some (.set _ xs) => return xs.length
    | some (.instance i) =>
      match Item.bindingsOf? i with
      | some d => return (← Run.entries d).length
      | none =>
        match ← ops.special? v "__len__" [] with
        | some r =>
          match r.int? with
          | some n => if n < 0 then Run.valueError "__len__() should return >= 0" else return n
          | none => do
            Run.typeError s!"'{← Run.kindName r}' object cannot be interpreted as an integer"
        | none => refuse
    | _ => refuse
  | _ => refuse

/-- Whether a value can be called. -/
def isCallable (v : Value) : Run Bool := do
  match v with
  | .native _ | .kind _ | .method _ _ | .unbound _ _ | .bound _ _ => return true
  | .wrapped .staticMethod _ => return true
  | .ref a =>
    match ← Run.object? a with
    | some (.function _) | some (.cls _) => return true
    | some (.instance i) => return (← Run.userMember? i.cls "__call__").isSome
    | _ => return false
  | _ => return false

/-- Looks whether some item of a value, or some item that does not, passes for what is wanted. -/
def quantify (ops : Ops) (wanted : Bool) (v : Value) : Run Value := do
  let iterator ← Iterate.start ops v
  let found ← search iterator ops.steps
  return .bool (if wanted then found else !found)
where
  search (iterator : Value) : Nat → Run Bool
    | 0 => throw .exhausted
    | n + 1 => do
      match ← ops.advance iterator .none with
      | .done _ => return false
      | .item x => if (← ops.truthy x) = wanted then return true else search iterator n

/-- The magnitude of a value. -/
def abs (ops : Ops) (v : Value) : Run Value := do
  match ← ops.special? v "__abs__" [] with
  | some r => return r
  | none =>
    match v.number? with
    | some (.int i) => return .int i.natAbs
    | some (.float x) => return .float x.abs
    | none => Run.typeError s!"bad operand type for abs(): '{← Run.kindName v}'"

/-- Quotient and remainder together. -/
def divmod (ops : Ops) (a b : Value) : Run Value := do
  match a.number?, b.number? with
  | some (.int i), some (.int j) =>
    if j = 0 then Run.failWith .zeroDivisionError "integer division or modulo by zero"
    else return .tuple [.int (i.fdiv j), .int (i.fmod j)]
  | some x, some y =>
    let x ← Run.lift x.toFloat
    let y ← Run.lift y.toFloat
    if y == 0 then Run.failWith .zeroDivisionError "float divmod()"
    else
      let (q, r) := Number.floatDivMod x y
      return .tuple [.float q, .float r]
  | _, _ =>
    match ← ops.special? a "__divmod__" [b] with
    | some r => return r
    | none =>
      Run.typeError (s!"unsupported operand type(s) for divmod(): '{← Run.kindName a}' and " ++
        s!"'{← Run.kindName b}'")

/-- A power, or a power modulo a number. -/
def pow (ops : Ops) (a b : Value) (modulus : Value) : Run Value := do
  match modulus with
  | .none => Operator.binary ops .pow a b
  | _ =>
    match a.int?, b.int?, modulus.int? with
    | some x, some y, some m =>
      if m = 0 then Run.valueError "pow() 3rd argument cannot be 0"
      if y < 0 then Run.valueError "base is not invertible for the given modulus"
      let n := m.natAbs
      let r := Number.powerMod n (Nat.log2 y.toNat + 2) ((x.fmod n).toNat) y.toNat (1 % n)
      return .int ((r : Int).fmod m)
    | _, _, _ =>
      if [a, b, modulus].any fun v => v matches .float _ then
        Run.typeError "pow() 3rd argument not allowed unless all arguments are integers"
      else
        let kinds ← [a, b, modulus].mapM fun v => do return s!"'{← Run.kindName v}'"
        Run.typeError ("unsupported operand type(s) for ** or pow(): " ++ Show.joined ", " kinds)

/-- A number rounded, to an integer or to a number of places. -/
def round (ops : Ops) (v places : Value) : Run Value := do
  match v.number?, places with
  | some (.int i), .none => return .int i
  | some (.int i), n =>
    let n ← Arguments.integer n
    return .int (if 0 ≤ n then i else Number.roundTo i (-n).toNat)
  | some (.float x), .none => return .int (← Run.lift (Number.wholeOf Decimal.Binary.round x))
  | some (.float x), n => return .float (Number.roundPlaces x (← Arguments.integer n))
  | none, n =>
    match ← ops.special? v "__round__" (match n with | .none => [] | _ => [n]) with
    | some r => return r
    | none => Run.typeError s!"type {← Run.kindName v} doesn't define __round__ method"

/-- The kinds or classes of an argument that is one or a tuple of them, nested as deep as the bound. -/
def classes (complaint : String) : Nat → Value → Run (List Value)
  | 0, _ => return []
  | n + 1, v => do
    match v with
    | .tuple vs => return (← vs.mapM (classes complaint n)).flatten
    | _ => if ← Run.isClass v then return [v] else Run.typeError complaint

/-- Whether a class belongs to one of several. -/
def belongs (cls : Value) (others : List Value) : Run Value := do
  let line ← Run.lineage cls
  return .bool (others.any fun o => line.any o.same)

/-- The better of a value and the best one so far, each with its key; of equal ones the first. -/
def better (ops : Ops) (op : CompareOp) (key : Value) (best : Option (Value × Value)) (v : Value) :
    Run (Option (Value × Value)) := do
  let k ← match key with
    | .none => pure v
    | f => ops.call f [v] []
  match best with
  | none => return some (v, k)
  | some (_, bestKey) =>
    if ← ops.truthy (← ops.order op k bestKey) then return some (v, k) else return best

/-- The greatest or least argument or item. -/
def select (ops : Ops) (name : String) (op : CompareOp) (args : List Value) (named : Members) :
    Run Value := do
  if args.isEmpty then Run.typeError s!"{name} expected at least 1 argument, got 0"
  match List.find? (fun (n, _) => n ≠ "key" && n ≠ "default") named with
  | some (n, _) => Run.typeError s!"'{n}' is an invalid keyword argument for {name}()"
  | none => pure ()
  let key := (named.find? "key").getD .none
  match args with
  | [v] =>
    match ← ops.foldItems (← Iterate.start ops v) (better ops op key) none with
    | some (r, _) => return r
    | none =>
      match named.find? "default" with
      | some d => return d
      | none => Run.valueError s!"{name}() arg is an empty sequence"
  | _ =>
    if (named.find? "default").isSome then
      Run.typeError s!"Cannot specify a default for {name}() with multiple positional arguments"
    match ← args.foldlM (better ops op key) none with
    | some (r, _) => return r
    | none => return .none

/-- The sum of the items of a value. -/
def sum (ops : Ops) (args : List Value) (named : Members) : Run Value := do
  let values ← Arguments.Signature.take ⟨"sum", ["", "start"], 1, 2⟩ args named
  let start := values[1]?.join.getD (.int 0)
  let iterator ← Iterate.start ops (args.headD .none)
  match start with
  | .str _ => Run.typeError "sum() can't sum strings [use ''.join(seq) instead]"
  | .bytes _ => Run.typeError "sum() can't sum bytes [use b''.join(seq) instead]"
  | _ => pure ()
  ops.foldItems iterator (Operator.binary ops .add) start

/-- The characters of a value that must be one. -/
def ord (v : Value) : Run Value := do
  match v with
  | .str s =>
    match s.toList with
    | [c] => return .int c.toNat
    | t =>
      Run.typeError s!"ord() expected a character, but string of length {t.length} found"
  | .bytes [n] => return .int n
  | _ => Run.typeError s!"ord() expected string of length 1, but {← Run.kindName v} found"

/-- The character of a code. -/
def chr (v : Value) : Run Value := do
  let i ← Arguments.small v
  if i < 0 || 0x10ffff < i then Run.valueError "chr() arg not in range(0x110000)"
  else return .str (Char.ofNat i.toNat).toString

/-- The next item of an iterator, or a value in its place. -/
def next (ops : Ops) (args : List Value) : Run Value := do
  match args with
  | [it] =>
    match ← ops.advance it .none with
    | .item v => return v
    | .done .none => Run.fail ⟨.stopIteration, []⟩
    | .done v => Run.fail ⟨.stopIteration, [v]⟩
  | it :: d :: _ =>
    match ← ops.advance it .none with
    | .item v => return v
    | .done _ => return d
  | [] => return .none

/-- A text option of printing, which may be missing. -/
def printOption (named : Members) (name standard : String) : Run String := do
  match named.find? name with
  | none | some .none => return standard
  | some (.str s) => return s
  | some v => Run.typeError s!"{name} must be None or a string, not {← Run.kindName v}"

/-- Prints values. -/
def print (ops : Ops) (args : List Value) (named : Members) : Run Value := do
  Arguments.onlyNamed "print" ["sep", "end", "file", "flush"] named
  let separator ← printOption named "sep" " "
  let ending ← printOption named "end" "\n"
  args.zipIdx.forM fun (v, i) => do
    if 0 < i then emit separator
    emit (← ops.str v)
  emit ending
  return .none
where
  /-- Adds a text to what is printed. -/
  emit (t : String) : Run Unit :=
    modify fun m => { m with printed := m.printed.push t }

/-- The member of a value, or another value when there is none. -/
def getMember (ops : Ops) (args : List Value) : Run Value := do
  match args with
  | v :: n :: rest =>
    let name ← ContextMethod.memberName n
    match rest with
    | [] => ops.member v name
    | d :: _ =>
      Run.catching (ops.member v name) fun e => do
        if ← Run.isException e .attributeError then return d else throw (.raised e)
  | _ => return .none

/-- Whether a value has a member. -/
def hasMember (ops : Ops) (v n : Value) : Run Value := do
  let name ← ContextMethod.memberName n
  Run.catching
    (do
      let _ ← ops.member v name
      return .bool true)
    fun e => do
      if ← Run.isException e .attributeError then return .bool false else throw (.raised e)

/-- A number as a key of a table: equal numbers have equal hashes. -/
def hash (v : Value) : Run Value := do
  Item.checkKey v
  match v.int? with
  | some i =>
    let h := Int.tmod i (Int.pow 2 61 - 1)
    return .int (if h = -1 then -2 else h)
  | none => return .int 0

/-- Sorts the items of a value into a new list. -/
def sorted (ops : Ops) (args : List Value) (named : Members) : Run Value := do
  Arguments.between "sorted" 1 1 args
  let items ← Iterate.items ops (args.headD .none)
  let list ← Run.newList items
  match list with
  | .ref a =>
    Arguments.onlyNamed "sort" ["key", "reverse"] named
    ListMethod.sort ops a named
    return list
  | v => return v

/-- Calls a built-in function. -/
def call (ops : Ops) (f : Native) (args : List Value) (named : Members) : Run Value := do
  let name := f.name
  let a := args.headD .none
  let b := args.getD 1 .none
  match f with
  | .abs => abs ops (← Arguments.one name args named)
  | .all => quantify ops false (← Arguments.one name args named)
  | .any => quantify ops true (← Arguments.one name args named)
  | .ascii =>
    let shown ← ops.repr (← Arguments.one name args named)
    return .str (String.ofList (Text.asciiOnly shown.toList))
  | .bin =>
    let v ← Arguments.one name args named
    return .str (Numeral.written "0b" 2 (← Arguments.integer v))
  | .oct =>
    let v ← Arguments.one name args named
    return .str (Numeral.written "0o" 8 (← Arguments.integer v))
  | .hex =>
    let v ← Arguments.one name args named
    return .str (Numeral.written "0x" 16 (← Arguments.integer v))
  | .callable => return .bool (← isCallable (← Arguments.one name args named))
  | .chr => chr (← Arguments.one name args named)
  | .ord => ord (← Arguments.one name args named)
  | .divmod =>
    Arguments.positional name 2 2 args named
    divmod ops a b
  | .format =>
    Arguments.positional name 1 2 args named
    match b with
    | .str s => return .str (← ops.format a s)
    | _ =>
      if args.length = 1 then return .str (← ops.format a "")
      else Run.typeError s!"format() argument 2 must be str, not {← Arguments.givenName b}"
  | .getMember =>
    Arguments.positional name 2 3 args named
    getMember ops args
  | .hasMember =>
    Arguments.positional name 2 2 args named
    hasMember ops a b
  | .setMember =>
    Arguments.positional name 3 3 args named
    Member.set ops a (← ContextMethod.memberName b) (args.getD 2 .none)
    return .none
  | .deleteMember =>
    Arguments.positional name 2 2 args named
    Member.delete a (← ContextMethod.memberName b)
    return .none
  | .globals | .locals =>
    Arguments.noneOf name args named
    return .ref (← get).globals
  | .hash => hash (← Arguments.one name args named)
  | .isInstance =>
    Arguments.positional name 2 2 args named
    let others ← classes
      "isinstance() arg 2 must be a type, a tuple of types, or a union" 100 b
    belongs (← Run.classOf a) others
  | .isSubclass =>
    Arguments.positional name 2 2 args named
    if !(← Run.isClass a) then Run.typeError "issubclass() arg 1 must be a class"
    let others ← classes
      "issubclass() arg 2 must be a class, a tuple of classes, or a union" 100 b
    belongs a others
  | .iter =>
    Arguments.positional name 1 2 args named
    match args with
    | [v] => Iterate.start ops v
    | _ =>
      if ← isCallable a then Iterate.new (.untilEqual a b)
      else Run.typeError "iter(v, w): v must be callable"
  | .len => return .int (← length ops (← Arguments.one name args named))
  | .max => select ops name .gt args named
  | .min => select ops name .lt args named
  | .next =>
    Arguments.positional name 1 2 args named
    next ops args
  | .pow =>
    match ← Arguments.Signature.take ⟨name, ["base", "exp", "mod"], 2, 3⟩ args named with
    | some x :: some y :: rest => pow ops x y (rest.head?.join.getD .none)
    | _ => return .none
  | .print => print ops args named
  | .repr => return .str (← ops.repr (← Arguments.one name args named))
  | .round =>
    match ← Arguments.Signature.take ⟨name, ["number", "ndigits"], 1, 2⟩ args named with
    | some v :: rest => round ops v (rest.head?.join.getD .none)
    | _ => return .none
  | .sorted => sorted ops args named
  | .sum => sum ops args named
  | .super => Run.failWith .runtimeError "super(): no arguments"
  | .escaper e =>
    let bound ← Binding.bind name [ContextMethod.required "value"] args named
    Escaper.apply ops e ((bound.find? "value").getD .none)
  | .plainText =>
    let bound ← Binding.bind name [ContextMethod.required "value"] args named
    return .str (← plainText ops ((bound.find? "value").getD .none))

end Stencil.Script.Builtin
