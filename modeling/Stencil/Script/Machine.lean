import Stencil.Script.Value.Basic

/-!
# The machine that runs scripts

The machine holds the objects of a run, the line that is being worked on, the exceptions that are being
handled, and what has been printed. A computation on the machine gives a value, raises an exception, or
exhausts the steps it was given.

Statements run from a stack of tasks, so that a generator that has given a value can be taken up again:
what is left of its body is the stack.
-/

namespace Stencil.Script

/-- A variable of a function: its name, the cell that holds it, and whether the function itself binds
it. -/
structure Variable where
  name : String
  cell : Address
  own : Bool
  deriving Repr, Inhabited

/-- Where names are looked up: among the variables of the functions around, in the namespace of a class
body, and last among the globals. Names that are declared global skip the rest. -/
structure Env where
  visible : List Variable
  globalNames : List String
  namespaceAt : Option Address
  /-- What stands before the names of functions and classes that are defined here. -/
  path : String
  deriving Repr, Inhabited

/-- The environment of a script's own statements. -/
def Env.top : Env := ⟨[], [], none, ""⟩

/-- A parameter of a function, with the value it takes without an argument. -/
structure ParamSlot where
  kind : ParamKind
  id : String
  default : Option Value
  deriving Inhabited

/-- A function defined by a script. -/
structure Function where
  name : String
  path : String
  /-- The line on which the definition starts. -/
  line : Nat
  params : List ParamSlot
  body : List Stmt
  /-- The names that the body binds, parameters included. -/
  locals : List String
  globalNames : List String
  captured : List Variable
  yields : Bool
  members : Members
  deriving Inhabited

/-- A class defined by a script. Its lineage starts with the class itself. -/
structure UserClass where
  name : String
  path : String
  bases : List Value
  lineage : List Value
  members : Members
  deriving Inhabited

/-- An object of a class or of a kind that has members. An exception also carries values, and the line
on which it was raised first. -/
structure Instance where
  cls : Value
  members : Members
  args : List Value
  origin : Option Nat
  deriving Inhabited

/-- What an iterator has left to give. -/
inductive Iterator where
  | items (kind : Kind) (rest : List Value)
  | listFrom (list : Address) (next : Nat)
  | listBack (list : Address) (remaining : Nat)
  | entries (what : View) (dict : Address) (next size : Nat)
  | range (next stop step : Int)
  | enumerate (source : Value) (next : Int)
  | zip (sources : List Value) (strict : Bool)
  | map (function : Value) (sources : List Value)
  | filter (function : Value) (source : Value)
  | untilEqual (function stop : Value)
  | indexed (object : Value) (next : Nat)
  deriving Inhabited

/-- How the value that is sent to a waiting generator is used. -/
inductive Receiver where
  | drop
  | assign (line : Nat) (targets : List Expr)
  | augment (line : Nat) (target : Expr) (op : BinaryOp) (left : Value)
  | ret
  deriving Inhabited

/-- How control leaves a statement. -/
inductive Signal where
  | proceed
  | breakLoop
  | continueLoop
  | ret (v : Value)
  | raised (exception : Address)
  /-- Control comes back to a generator, with a value. -/
  | sent (v : Value)
  deriving Inhabited

/-- What is left to do. -/
inductive Task where
  | run (body : List Stmt)
  | whileLoop (line : Nat) (test : Expr) (body orelse : List Stmt)
  | forLoop (line : Nat) (iterator : Value) (target : Expr) (body orelse : List Stmt)
  /-- Below the tasks of a body that handlers watch over. -/
  | tryBody (handlers : List Handler) (orelse : List Stmt)
  /-- Below the tasks of a handler. -/
  | handling (name : Option String)
  /-- Below the tasks of a body that has a final part. -/
  | finally (body : List Stmt)
  /-- Below the tasks of a final part. -/
  | goOn (signal : Signal)
  /-- Below the tasks of a body in a context of its own. -/
  | leaving (line : Nat) (manager leave : Value)
  | withItems (line : Nat) (items : List (Expr × Option Expr)) (body : List Stmt)
  /-- Waits on a line for a value to be sent. -/
  | awaitSent (line : Nat) (receiver : Receiver)
  /-- Hands on the values of an iterator. -/
  | delegate (line : Nat) (iterator : Value) (receiver : Receiver)
  deriving Inhabited

/-- The state of a generator: not yet taken up again, running, or at its end. -/
inductive GeneratorState where
  | waiting (tasks : List Task)
  | running
  | finished
  deriving Inhabited

/-- A generator: the environment of its body and what is left of it. -/
structure Generator where
  name : String
  env : Env
  state : GeneratorState
  started : Bool
  deriving Inhabited

/-- Objects. -/
inductive Object where
  | list (items : Array Value)
  | dict (entries : Entries)
  | set (frozen : Bool) (items : List Value)
  | cell (content : Option Value)
  | function (f : Function)
  | cls (c : UserClass)
  | instance (i : Instance)
  | iterator (i : Iterator)
  | generator (g : Generator)
  /-- The namespace of a class body. -/
  | space (names : Members)
  /-- The namespace of a class body that has been handed out as a dictionary. -/
  | handedOut (dict : Address)
  deriving Inhabited

/-- The state of a run. -/
structure Machine where
  heap : Array Object
  globals : Address
  line : Nat
  depth : Nat
  handling : List Address
  /-- The containers whose text is being written, so that none is written within itself. -/
  showing : List Address
  printed : Array String

/-- A machine without objects other than an empty namespace. -/
def Machine.start : Machine :=
  ⟨#[.dict []], ⟨0⟩, 0, 0, [], [], #[]⟩

/-- Why a computation stops short: an exception was raised, or the steps were used up. -/
inductive Stop where
  | raised (exception : Address)
  | exhausted
  deriving Repr, Inhabited

/-- A computation on the machine. -/
abbrev Run := EStateM Stop Machine

namespace Run

/-- Puts a new object on the heap. -/
def alloc (o : Object) : Run Value :=
  modifyGet fun m => (.ref ⟨m.heap.size⟩, { m with heap := m.heap.push o })

/-- The object at an address. -/
def object? (a : Address) : Run (Option Object) := do
  return (← get).heap[a.index]?

/-- Replaces an object. -/
def store (a : Address) (o : Object) : Run Unit :=
  modify fun m => { m with heap := m.heap.setIfInBounds a.index o }

/-- Changes an object in place. -/
def change (a : Address) (f : Object → Object) : Run Unit :=
  modify fun m => { m with heap := m.heap.modify a.index f }

/-- Notes the line that is being worked on as the one on which an exception was raised. The first one
that was noted stays. -/
def mark (exception : Address) : Run Unit := do
  let m ← get
  match m.heap[exception.index]? with
  | some (.instance i) =>
    if i.origin.isNone then
      store exception (.instance { i with origin := some m.line })
  | _ => pure ()

/-- Raises an exception that is on the heap. Its first line stays. -/
def raise {α : Type} (exception : Address) : Run α := do
  mark exception
  throw (.raised exception)

/-- Raises a new exception of a kind. -/
def fail {α : Type} (f : Failure) : Run α := do
  let m ← get
  let a : Address := ⟨m.heap.size⟩
  let _ ← alloc (.instance ⟨.kind (.exception f.kind), [], f.args, some m.line⟩)
  throw (.raised a)

/-- Raises a new exception with a message. -/
def failWith {α : Type} (kind : ExceptionKind) (message : String) : Run α :=
  fail (.of kind message)

/-- Raises the exception for a value of a wrong kind. -/
def typeError {α : Type} (message : String) : Run α :=
  failWith .typeError message

/-- Raises the exception for a bad value. -/
def valueError {α : Type} (message : String) : Run α :=
  failWith .valueError message

/-- The result of an operation on values, whose failure is raised. -/
def lift {α : Type} : Except Failure α → Run α
  | .ok a => pure a
  | .error f => fail f

/-- How deep calls may nest. -/
def depthLimit : Nat := 960

/-- Runs a computation one call deeper and comes back to the same line, also where it raises an
exception: the exception itself carries the line to report. -/
def nested {α : Type} (body : Run α) : Run α := do
  let m ← get
  if depthLimit ≤ m.depth then
    failWith .recursionError "maximum recursion depth exceeded"
  else
    set { m with depth := m.depth + 1 }
    let restore : Run Unit := modify ({ · with line := m.line, depth := m.depth })
    let r ← tryCatch body fun e => do
      restore
      throw e
    restore
    return r

/-- Notes the line that is being worked on. -/
def atLine (line : Nat) : Run Unit :=
  modify ({ · with line })

/-- A new list. -/
def newList (items : List Value) : Run Value :=
  alloc (.list items.toArray)

/-- A new dictionary. -/
def newDict (entries : Entries) : Run Value :=
  alloc (.dict entries)

/-- The entries of a dictionary; another object counts as empty. -/
def entries (a : Address) : Run Entries := do
  match ← object? a with
  | some (.dict es) => return es
  | _ => return []

/-- The items of a list; another object counts as empty. -/
def items (a : Address) : Run (Array Value) := do
  match ← object? a with
  | some (.list xs) => return xs
  | _ => return #[]

/-- The content of a cell. -/
def cell (a : Address) : Run (Option Value) := do
  match ← object? a with
  | some (.cell c) => return c
  | _ => return none

/-- The kind or class of a value, as a value. -/
def classOf (v : Value) : Run Value := do
  match v with
  | .none => return .kind .none
  | .ellipsis => return .kind .ellipsis
  | .notImplemented => return .kind .notImplemented
  | .bool _ => return .kind .bool
  | .int _ => return .kind .int
  | .float _ => return .kind .float
  | .str _ => return .kind .str
  | .bytes _ => return .kind .bytes
  | .tuple _ => return .kind .tuple
  | .range _ _ _ => return .kind .range
  | .slice _ _ _ => return .kind .slice
  | .native (.escaper _) | .native .plainText => return .kind .function
  | .native _ => return .kind .native
  | .kind _ => return .kind .type
  | .method (.ref a) _ =>
    match ← object? a with
    | some (.instance _) => return .kind .method
    | _ => return .kind .native
  | .method _ _ => return .kind .native
  | .unbound _ _ => return .kind .nativeMethod
  | .bound _ _ => return .kind .method
  | .view .keys _ => return .kind .keyView
  | .view .values _ => return .kind .valueView
  | .view .items _ => return .kind .itemView
  | .wrapped how _ => return .kind how
  | .foreign k _ _ => return .kind (.foreign k)
  | .behind _ _ => return .kind (.foreign "super")
  | .ref a =>
    match ← object? a with
    | some (.list _) => return .kind .list
    | some (.dict _) => return .kind .dict
    | some (.set frozen _) => return .kind (if frozen then .frozenSet else .set)
    | some (.cell _) => return .kind .cell
    | some (.function _) => return .kind .function
    | some (.cls _) => return .kind .type
    | some (.instance i) => return i.cls
    | some (.generator _) => return .kind .generator
    | some (.iterator i) =>
      return .kind <| match i with
        | .items k _ => k
        | .listFrom _ _ => .listIterator
        | .listBack _ _ => .listReverseIterator
        | .entries .keys _ _ _ => .keyIterator
        | .entries .values _ _ _ => .valueIterator
        | .entries .items _ _ _ => .itemIterator
        | .range _ _ _ => .rangeIterator
        | .enumerate _ _ => .enumerate
        | .zip _ _ => .zip
        | .map _ _ => .map
        | .filter _ _ => .filter
        | .untilEqual _ _ => .callIterator
        | .indexed _ _ => .foreign "iterator"
    | some (.space _) | some (.handedOut _) | none => return .kind .object

/-- The name of a kind or class. -/
def nameOf (cls : Value) : Run String := do
  match cls with
  | .kind k => return k.name
  | .ref a =>
    match ← object? a with
    | some (.cls c) => return c.name
    | _ => return "object"
  | _ => return "object"

/-- The name of the kind of a value, as messages give it. -/
def kindName (v : Value) : Run String := do
  nameOf (← classOf v)

/-- A kind or class and all that it belongs to, the nearest first. -/
def lineage (cls : Value) : Run (List Value) := do
  match cls with
  | .kind k => return k.ancestors.map .kind
  | .ref a =>
    match ← object? a with
    | some (.cls c) => return c.lineage
    | _ => return []
  | _ => return []

/-- Whether a kind or class is another one or belongs to it. -/
def isSubclass (cls other : Value) : Run Bool := do
  return (← lineage cls).any (·.same other)

/-- Whether a value is of a kind. -/
def isOfKind (v : Value) (k : Kind) : Run Bool := do
  isSubclass (← classOf v) (.kind k)

end Run

end Stencil.Script
