import Stencil.Script.Construct

/-!
# Calls

Functions of scripts run in a new scope whose variables are cells, so that functions defined within see
later changes. A function that gives values makes a generator instead. A class that is called makes an
object and initialises it.
-/

namespace Stencil.Script.Call

/-- Raises an exception within a generator, at the place where it waits. -/
def raiseIn (ops : Ops) (a : Address) (g : Generator) (args : List Value) : Run Value := do
  let v := args.headD .none
  let exception ← if ← Run.isExceptionClass v then ops.call v (args.drop 1) [] else pure v
  let refuse : Run Value := do
    Run.typeError (s!"exceptions must be classes or instances deriving from BaseException, " ++
      s!"not {← Run.kindName exception}")
  match exception with
  | .ref e =>
    if ← Run.isOfKind exception (.exception .baseException) then
      match ← Iterate.resume ops a g (.raised e) with
      | .item v => return v
      | .done .none => Run.fail ⟨.stopIteration, []⟩
      | .done v => Run.fail ⟨.stopIteration, [v]⟩
    else refuse
  | _ => refuse

/-- Ends a generator at the place where it waits. -/
def close (ops : Ops) (a : Address) (g : Generator) : Run Value := do
  match g.state with
  | .waiting _ =>
    if !g.started then
      Run.store a (.generator { g with state := .finished })
      return .none
    let exit ← Construct.instanceOf (.kind (.exception .generatorExit)) []
    match exit with
    | .ref e =>
      Run.catching
        (do
          match ← Iterate.resume ops a g (.raised e) with
          | .item _ => Run.failWith .runtimeError "generator ignored GeneratorExit"
          | .done _ => return .none)
        fun raised => do
          if ← Run.isException raised .generatorExit then return .none else throw (.raised raised)
    | _ => return .none
  | _ => return .none

/-- Calls a method of a generator. -/
def generatorMethod (ops : Ops) (a : Address) (g : Generator) (name : String) (args : List Value) :
    Run Value := do
  match name with
  | "close" => close ops a g
  | "throw" => raiseIn ops a g args
  | "send" =>
    let v := args.headD .none
    match v, g.started with
    | .none, _ | _, true => pure ()
    | _, false =>
      Run.typeError "can't send non-None value to a just-started generator"
    match ← ops.advance (.ref a) v with
    | .item r => return r
    | .done .none => Run.fail ⟨.stopIteration, []⟩
    | .done r => Run.fail ⟨.stopIteration, [r]⟩
  | "__next__" => Builtin.next ops [.ref a]
  | _ => return .ref a

/-- Methods that values of several kinds have. -/
def commonMethod (ops : Ops) (v : Value) (name : String) (args : List Value) : Run Value := do
  match name with
  | "__len__" => return .int (← Builtin.length ops v)
  | "__iter__" => Iterate.start ops v
  | "__contains__" => return .bool (← Item.contains ops v (args.headD .none))
  | "__getitem__" => Item.get ops v (args.headD .none)
  | "__str__" => return .str (← Show.str ops v)
  | "__repr__" => return .str (← Show.repr ops v)
  | "__eq__" => return .bool (← ops.equal v (args.headD .none))
  | "__format__" => return .str (← ops.str v)
  | _ => Member.missing v name

/-- Calls a method of an exception or of a plain object. -/
def objectMethod (ops : Ops) (a : Address) (i : Instance) (name : String) (args : List Value) :
    Run Value := do
  match name with
  | "__init__" =>
    if ← Run.isExceptionClass i.cls then Run.store a (.instance { i with args })
    return .none
  | "with_traceback" => return .ref a
  | "add_note" => return .none
  | "__str__" =>
    if ← Run.isExceptionClass i.cls then return .str (← Show.exception ops i)
    else return .str (← Show.plainObject a i.cls)
  | "__repr__" =>
    if ← Run.isExceptionClass i.cls then
      return .str (← Show.shownException ops i)
    else return .str (← Show.plainObject a i.cls)
  | _ => commonMethod ops (.ref a) name args

/-- Counts or finds a value in a range. -/
def rangeMethod (ops : Ops) (start stop step : Int) (name : String) (v : Value) : Run Value := do
  let range : Value := .range start stop step
  match v.int? with
  | some i =>
    if ← Item.contains ops range v then
      return .int (if name = "count" then 1 else (i - start) / step)
    else if name = "count" then return .int 0
    else Run.valueError s!"{← ops.repr v} is not in range"
  | none =>
    let vs ← Iterate.items ops range
    if name = "count" then ListMethod.count ops v 0 vs
    else
      match ← ListMethod.place? ops v 0 vs with
      | some k => return .int k
      | none => Run.valueError "sequence.index(x): x not in sequence"

/-- Calls a method of a value of a built-in kind. -/
def method (ops : Ops) (self : Value) (name : String) (args : List Value) (named : Members) :
    Run Value := do
  let common : Run Value := commonMethod ops self name args
  match self with
  | .str s => if Str.methods.contains name then Str.call ops s name args named else common
  | .tuple vs =>
    if TupleMethod.names.contains name then TupleMethod.call ops vs name args named else common
  | .range a b c => rangeMethod ops a b c name (← Arguments.one s!"range.{name}" args named)
  | .bytes b => return .str (String.ofList (b.map Char.ofNat))
  | .ref a =>
    match ← Run.object? a with
    | some (.list _) =>
      if ListMethod.names.contains name then ListMethod.call ops a name args named else common
    | some (.dict _) =>
      if DictMethod.names.contains name then DictMethod.call ops a name args named else common
    | some (.set frozen xs) => SetMethod.call ops a frozen xs name args named
    | some (.generator g) => generatorMethod ops a g name args
    | some (.instance i) =>
      match i.cls with
      | .kind (.context k) => ContextMethod.call ops k a name args named
      | _ => objectMethod ops a i name args
    | _ => common
  | _ =>
    match self.number?, name with
    | some (.int i), "bit_length" => return .int (if i = 0 then 0 else Nat.log2 i.natAbs + 1)
    | some (.int i), "bit_count" => return .int ((Numeral.digitsIn 2 i.natAbs).count '1')
    | some (.float x), "is_integer" => return .bool (Number.isWhole x)
    | some n, "conjugate" => return n.toValue
    | _, _ => common

/-- The environment in which the body of a function runs. -/
def scope (f : Function) (bound : Members) : Run Env := do
  let own ← f.locals.mapM fun name => do
    match ← Run.alloc (.cell (bound.find? name)) with
    | .ref a => return (⟨name, a, true⟩ : Variable)
    | _ => return ⟨name, ⟨0⟩, true⟩
  return ⟨own ++ f.captured, f.globalNames, none, f.path ++ ".<locals>."⟩

/-- Calls a function of a script. -/
def function (ops : Ops) (f : Function) (args : List Value) (named : Members) : Run Value := do
  let bound ← Binding.bind f.path f.params args named
  let env ← scope f bound
  if f.yields then
    Run.alloc (.generator ⟨f.path, env, .waiting [.awaitSent f.line .drop, .run f.body], false⟩)
  else
    Run.nested do
      match ← ops.resume env .proceed [.run f.body] with
      | .finished v | .yielded v _ => return v

/-- Makes an object of a class of a script. -/
def construct (ops : Ops) (cls : Value) (c : UserClass) (args : List Value) (named : Members) :
    Run Value := do
  let isException ← Run.isExceptionClass cls
  let made ← Construct.instanceOf cls (if isException then args else [])
  match ← Run.userMember? cls "__init__" with
  | some init =>
    match ← ops.call init (made :: args) named with
    | .none => return made
    | r => Run.typeError s!"__init__() should return None, not '{← Run.kindName r}'"
  | none =>
    if isException then
      if !named.isEmpty then Run.typeError s!"{c.name}() takes no keyword arguments"
      return made
    else if args.isEmpty && named.isEmpty then return made
    else Run.typeError s!"{c.name}() takes no arguments"

/-- Raises the exception for a value that cannot be called. -/
def notCallable (v : Value) : Run Value := do
  Run.typeError s!"'{← Run.kindName v}' object is not callable"

/-- Calls a value. -/
def call (ops : Ops) (callee : Value) (args : List Value) (named : Members) : Run Value := do
  match callee with
  | .native f => Builtin.call ops f args named
  | .kind k => Construct.call ops k args named
  | .method self name => method ops self name args named
  | .unbound .dict "fromkeys" => DictMethod.fromKeys ops args named
  | .unbound k name =>
    match args with
    | self :: rest =>
      if k == .object || (← Run.isOfKind self k) then method ops self name rest named
      else
        Run.typeError (s!"descriptor '{name}' for '{k.name}' objects doesn't apply to a " ++
          s!"'{← Run.kindName self}' object")
    | [] => Run.typeError s!"unbound method {k.name}.{name}() needs an argument"
  | .bound self f => ops.call f (self :: args) named
  | .wrapped .staticMethod f => ops.call f args named
  | .ref a =>
    match ← Run.object? a with
    | some (.function f) => function ops f args named
    | some (.cls c) => construct ops callee c args named
    | some (.instance i) =>
      match ← Run.userMember? i.cls "__call__" with
      | some f => ops.call f (callee :: args) named
      | none => notCallable callee
    | _ => notCallable callee
  | _ => notCallable callee

end Stencil.Script.Call
