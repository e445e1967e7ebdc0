import Stencil.Script.Machine

/-!
# The operations that call each other

Evaluating an expression may call a function, which runs statements, which evaluate expressions; writing
the text of a value may call a method of its class. These operations are gathered in one record, and
each of them is defined from a record of the operations one step below. So every definition stands alone
and none of them recurses.
-/

namespace Stencil.Script

/-- How a body leaves off: at its end with a value, or at a place where it gives one. -/
inductive Outcome where
  | finished (v : Value)
  | yielded (v : Value) (tasks : List Task)

/-- What an iterator does when it is taken up: it gives an item, or it is at its end. -/
inductive Advance where
  | item (v : Value)
  | done (v : Value)

/-- The operations of the level below, and the number of steps that a loop may take. -/
structure Ops where
  steps : Nat
  eval : Env → Expr → Run Value
  call : Value → List Value → Members → Run Value
  resume : Env → Signal → List Task → Run Outcome
  /-- Takes up an iterator, to which a value is sent. -/
  advance : Value → Value → Run Advance
  member : Value → String → Run Value
  repr : Value → Run String
  str : Value → Run String
  equal : Value → Value → Run Bool
  order : CompareOp → Value → Value → Run Value
  format : Value → String → Run String

/-- The operations of a machine that may not take a step. -/
def Ops.exhausted : Ops where
  steps := 0
  eval _ _ := throw .exhausted
  call _ _ _ := throw .exhausted
  resume _ _ _ := throw .exhausted
  advance _ _ := throw .exhausted
  member _ _ := throw .exhausted
  repr _ := throw .exhausted
  str _ := throw .exhausted
  equal _ _ := throw .exhausted
  order _ _ _ := throw .exhausted
  format _ _ := throw .exhausted

namespace Run

/-- Runs a computation, and another one if it raises an exception. -/
def catching {α : Type} (body : Run α) (handler : Address → Run α) : Run α :=
  tryCatch body fun
    | .raised a => handler a
    | .exhausted => throw .exhausted

/-- The class of an exception. -/
def exceptionClass (a : Address) : Run Value :=
  classOf (.ref a)

/-- Whether an exception is of a kind. -/
def isException (a : Address) (k : ExceptionKind) : Run Bool := do
  isSubclass (← exceptionClass a) (.kind (.exception k))

/-- The member that a class has or takes over from its parents, kinds that scripts do not define
aside. -/
def userMember? (cls : Value) (name : String) : Run (Option Value) := do
  let line ← lineage cls
  let m ← get
  return line.findSome? fun
    | .ref a =>
      match m.heap[a.index]? with
      | some (.cls c) => c.members.find? name
      | _ => none
    | _ => none

/-- The method that the class of an object defines for a special purpose. -/
def special? (v : Value) (name : String) : Run (Option Value) := do
  match v with
  | .ref a =>
    match ← object? a with
    | some (.instance i) => userMember? i.cls name
    | _ => return none
  | _ => return none

/-- Whether a value is a class of exceptions. -/
def isExceptionClass (v : Value) : Run Bool :=
  isSubclass v (.kind (.exception .baseException))

/-- Whether a value is a kind or class. -/
def isClass (v : Value) : Run Bool := do
  match v with
  | .kind _ => return true
  | .ref a =>
    match ← object? a with
    | some (.cls _) => return true
    | _ => return false
  | _ => return false

end Run

namespace Ops

/-- Calls a method that a class defines for a special purpose, if it has one. -/
def special? (ops : Ops) (v : Value) (name : String) (args : List Value) : Run (Option Value) := do
  match ← Run.special? v name with
  | some f => return some (← ops.call f (v :: args) [])
  | none => return none

/-- Whether a value counts as true. -/
def truthy (ops : Ops) (v : Value) : Run Bool := do
  match v with
  | .none => return false
  | .bool b => return b
  | .int i => return i ≠ 0
  | .float x => return !(x == 0)
  | .str s => return !s.isEmpty
  | .bytes b => return !b.isEmpty
  | .tuple xs => return !xs.isEmpty
  | .range a b c => return rangeLength a b c ≠ 0
  | .view _ a => return !(← Run.entries a).isEmpty
  | .ref a =>
    match ← Run.object? a with
    | some (.list xs) => return !xs.isEmpty
    | some (.dict es) => return !es.isEmpty
    | some (.set _ xs) => return !xs.isEmpty
    | some (.instance i) =>
      match i.cls with
      | .kind (.context .text) | .kind (.context .html) =>
        match i.members.find? "_vars" with
        | some (.ref vars) => return !(← Run.entries vars).isEmpty
        | _ => return true
      | _ =>
        match ← ops.special? v "__bool__" [] with
        | some (.bool b) => return b
        | some r => Run.typeError s!"__bool__ should return bool, returned {← Run.kindName r}"
        | none =>
          match ← ops.special? v "__len__" [] with
          | some n => return n.int? ≠ some 0
          | none => return true
    | _ => return true
  | _ => return true

/-- Runs an action on each item that an iterator gives; the action tells whether to go on. -/
def eachUntil (ops : Ops) (iterator : Value) (f : Value → Run Bool) : Run Unit :=
  go ops.steps
where
  go : Nat → Run Unit
    | 0 => throw .exhausted
    | n + 1 => do
      match ← ops.advance iterator .none with
      | .done _ => return ()
      | .item v => if ← f v then go n

/-- Goes through the items that an iterator gives, one after the other. -/
def foldItems {β : Type} (ops : Ops) (iterator : Value) (f : β → Value → Run β) (start : β) : Run β :=
  go ops.steps start
where
  /-- Goes through at most so many items. -/
  go : Nat → β → Run β
    | 0, _ => throw .exhausted
    | n + 1, acc => do
      match ← ops.advance iterator .none with
      | .done _ => return acc
      | .item v => go n (← f acc v)

/-- The items that an iterator still gives. -/
def drain (ops : Ops) (iterator : Value) : Run (Array Value) :=
  ops.foldItems iterator (fun acc v => return acc.push v) #[]

end Ops

end Stencil.Script
