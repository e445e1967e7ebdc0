import Stencil.Script.Exchange

/-!
# Contexts

A context holds the bindings that a template sees as plain names, and the escape that its escaped
expressions go through. What the template sees are the values under the names that the context lists,
or else the public members of the context.
-/

namespace Stencil.Context

open Script

/-- The kind of a context that is one of the known kinds. -/
def kind? (v : Value) : Run (Option ContextKind) := do
  match ← Run.classOf v with
  | .kind (.context k) => return some k
  | _ => return none

/-- Whether a value can be used as a context: whether it can be asked for bindings, given bindings, and
has an escape. -/
def isContext (v : Value) : Run Bool := do
  match ← kind? v with
  | some k => return k ≠ .incomplete
  | none => return false

/-- A new context of a kind with bindings and an escaper in place of that of its kind. -/
def new (ops : Ops) (k : ContextKind) (bindings : Entries) (escaper : Option Value) : Run Value := do
  let custom : Members := match escaper with
    | some e => [(ContextMethod.escaperMember k, e)]
    | none => []
  let make (members : Members) : Run Value :=
    Run.alloc (.instance ⟨.kind (.context k), members, [], none⟩)
  match k with
  | .text | .html =>
    let named ← bindings.mapM fun (name, v) => do return (Value.str (← ops.str name), v)
    let vars ← Run.newDict (named.foldl (fun es (name, v) => es.insert name v) [])
    make (("_vars", vars) :: custom)
  | .keyed =>
    let store ← Run.newDict bindings
    make (("_store", store) :: custom)
  | .duck =>
    let members := bindings.filterMap fun
      | (.str name, v) => some (name, v)
      | _ => none
    make (custom ++ members)
  | .bare | .incomplete => make []

/-- A new context from a mapping of bindings, which may be missing, and further bindings by name. Only
contexts that keep text or HTML take the latter, and not under the names of their own parameters. -/
def ofArguments (ops : Ops) (k : ContextKind) (mapping : Value) (named : Members)
    (escaper : Option Value) : Run Value := do
  let es ← match mapping with
    | .ref a => Run.entries a
    | _ => pure []
  match k with
  | .text | .html =>
    let slots : List ParamSlot := [
      ContextMethod.required "self", ContextMethod.optional "vars", ⟨.names, "kwargs", none⟩]
    let _ ← Binding.bind s!"{ContextMethod.pathOf k}.__init__" slots [.none, mapping] named
    new ops k (es ++ named.map fun (n, v) => (.str n, v)) escaper
  | _ => new ops k es escaper

/-- Calls a method of a context. -/
def invoke (ops : Ops) (context : Value) (method : String) (args : List Value) : Run Value := do
  ops.call (← ops.member context method) args []

/-- The entries of a dictionary with the values that an action gives. -/
def valuesUnder (f : Value → Run Value) : List Value → Entries → Run Entries
  | [], es => return es
  | k :: rest, es => do
    let v ← f k
    Item.checkKey k
    valuesUnder f rest (es.insert k v)

/-- The bindings that a template sees. -/
def bindings (ops : Ops) (context : Value) : Run Entries := do
  let keys ← Run.catching (ops.member context "keys") fun e => do
    if ← Run.isException e .attributeError then return .none else throw (.raised e)
  if ← Builtin.isCallable keys then
    let names ← Iterate.items ops (← ops.call keys [] [])
    valuesUnder (fun name => invoke ops context "get" [name]) names []
  else
    match context with
    | .ref a =>
      match ← Run.object? a with
      | some (.instance i) =>
        return (i.members.filter fun (n, _) => !n.startsWith "_").map fun (n, v) => (.str n, v)
      | _ => return []
    | _ => return []

/-- What a context holds, as data: its own store, or its members. Contexts that hold nothing of their
own have no such picture. -/
def contents? (ops : Ops) (context : Value) : Run (Option Data) := do
  match context with
  | .ref a =>
    match ← Run.object? a with
    | some (.instance i) =>
      match i.cls with
      | .kind (.context k) =>
        match k, ContextMethod.dict? k i with
        | _, some d => return some (← snapshot ops 200 (.ref d))
        | .duck, none =>
          let shown := i.members.filter fun (n, _) => n ≠ ContextMethod.escaperMember k
          return some (.dict (← shown.mapM fun (n, v) => do return (.str n, ← snapshot ops 200 v)))
        | _, none => return none
      | _ => return none
    | _ => return none
  | _ => return none

end Stencil.Context
