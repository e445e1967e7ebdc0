import Stencil.Script.Method.Str
import Stencil.Script.Method.Context

/-!
# Members

Reading, writing and removing the members of values. An object of a class has its own members and takes
over those of its class and of the classes behind it; a function found there becomes a method. Values
of the built-in kinds have the methods of their kind.
-/

namespace Stencil.Script.Member

/-- The methods that every exception has. -/
def exceptionMethods : List String := ["__init__", "__str__", "__repr__", "with_traceback", "add_note"]

/-- The methods of a kind, those of the kinds it belongs to aside. -/
def kindMethods : Kind → List String
  | .object => ["__init__", "__str__", "__repr__", "__eq__", "__format__"]
  | .str => Str.methods ++ ["__len__", "__contains__", "__getitem__", "__iter__"]
  | .list => ListMethod.names ++ ["__len__", "__contains__", "__getitem__", "__iter__"]
  | .tuple => TupleMethod.names ++ ["__len__", "__contains__", "__getitem__", "__iter__"]
  | .dict => DictMethod.names ++ ["__len__", "__contains__", "__getitem__", "__iter__"]
  | .set => SetMethod.names
  | .frozenSet => SetMethod.readers
  | .range => ["count", "index"]
  | .int => ["bit_count", "bit_length", "conjugate"]
  | .float => ["conjugate", "is_integer"]
  | .bytes => ["decode"]
  | .generator => ["close", "send", "throw", "__next__", "__iter__"]
  | .keyView | .valueView | .itemView => ["__len__", "__iter__"]
  | .exception _ => exceptionMethods
  | .context .text => ["get", "set", "escape", "keys", "items", "__getitem__", "__setitem__",
      "__contains__", "__iter__", "__len__", "__getattr__", "__repr__"]
  | .context .html => []
  | .context .keyed => ["get", "set", "escape", "keys"]
  | .context .duck | .context .bare => ["get", "set", "escape"]
  | .context .incomplete => ["get", "set"]
  | _ => []

/-- The kind among a kind and its parents that has a method. -/
def kindWith? (k : Kind) (name : String) : Option Kind :=
  k.ancestors.find? fun k => (kindMethods k).contains name

/-- Raises the exception for a member that a value does not have. -/
def missing {α : Type} (v : Value) (name : String) : Run α := do
  let what ← if ← Run.isClass v then do pure s!"type object '{← Run.nameOf v}'"
    else do pure s!"'{← Run.kindName v}' object"
  Run.failWith .attributeError s!"{what} has no attribute '{name}'"

/-- A member of a class as an object of the class sees it: functions become methods. -/
def bound (ops : Ops) (self member : Value) : Run Value := do
  match member with
  | .wrapped .property f => ops.call f [self] []
  | .wrapped .classMethod f => return .bound (← Run.classOf self) f
  | .wrapped .staticMethod f => return f
  | .ref a =>
    match ← Run.object? a with
    | some (.function _) => return .bound self member
    | _ => return member
  | .unbound _ name => return .method self name
  | _ => return member

/-- The member that a list of classes has first. -/
def fromClasses? (name : String) : List Value → Run (Option Value)
  | [] => return none
  | cls :: rest => do
    match cls with
    | .kind k =>
      if (kindMethods k).contains name then return some (.unbound k name)
      else fromClasses? name rest
    | .ref a =>
      match ← Run.object? a with
      | some (.cls c) =>
        match c.members.find? name with
        | some v => return some v
        | none => fromClasses? name rest
      | _ => fromClasses? name rest
    | _ => fromClasses? name rest

/-- Members that every object has. -/
def common? (v : Value) (name : String) : Run (Option Value) := do
  match name with
  | "__class__" => return some (← Run.classOf v)
  | "__doc__" => return some .none
  | _ => return none

/-- A member of an exception that is not stored under its name. -/
def ofException? (i : Instance) (name : String) : Run (Option Value) := do
  if ← Run.isExceptionClass i.cls then
    match name with
    | "args" => return some (.tuple i.args)
    | "value" =>
      if ← Run.isSubclass i.cls (.kind (.exception .stopIteration)) then
        return some (i.args.headD .none)
      else return none
    | "code" =>
      if ← Run.isSubclass i.cls (.kind (.exception .systemExit)) then
        return some (i.args.headD .none)
      else return none
    | "__cause__" | "__context__" | "__traceback__" => return some .none
    | _ => return none
  else return none

/-- The members of an object as a dictionary. -/
def asDict (ms : Members) : Run Value :=
  Run.newDict (ms.map fun (n, v) => (.str n, v))

/-- A member of an object of a class. -/
def ofInstance (ops : Ops) (v : Value) (i : Instance) (name : String) : Run Value := do
  let inherited ← fromClasses? name (← Run.lineage i.cls)
  match inherited with
  | some (.wrapped .property f) => ops.call f [v] []
  | _ =>
    match i.members.find? name with
    | some m => return m
    | none =>
      match inherited with
      | some m => bound ops v m
      | none =>
        match ← ofException? i name with
        | some m => return m
        | none =>
          match ← common? v name with
          | some m => return m
          | none =>
            match i.cls with
            | .kind (.context k) =>
              if name = "__dict__" && k ≠ .bare && k ≠ .incomplete then asDict i.members
              else if k = .text || k = .html then
                if name = "escaper" then
                  return .native (.escaper (if k = .html then .html else .text))
                else
                  match v with
                  | .ref a => ContextMethod.call ops k a "__getattr__" [.str name] []
                  | _ => missing v name
              else missing v name
            | _ =>
              if name = "__dict__" then asDict i.members
              else
                match ← ops.special? v "__getattr__" [.str name] with
                | some m => return m
                | none => missing v name

/-- A member of a class itself. -/
def ofClass (v : Value) (name : String) : Run Value := do
  match ← fromClasses? name (← Run.lineage v) with
  | some (.wrapped .staticMethod f) => return f
  | some (.wrapped .classMethod f) => return .bound v f
  | some m => return m
  | none =>
    match name with
    | "__name__" | "__qualname__" => return .str (← Run.nameOf v)
    | "__module__" => return .str "builtins"
    | "__mro__" => return .tuple (← Run.lineage v)
    | _ =>
      match ← common? v name with
      | some m => return m
      | none => missing v name

/-- A member of a function. -/
def ofFunction (v : Value) (f : Function) (name : String) : Run Value := do
  match f.members.find? name with
  | some m => return m
  | none =>
    match name with
    | "__name__" => return .str f.name
    | "__qualname__" => return .str f.path
    | _ =>
      match ← common? v name with
      | some m => return m
      | none => missing v name

/-- A part of a number. -/
def ofNumber? (n : Number) (name : String) : Option Value :=
  match n, name with
  | .int i, "real" | .int i, "numerator" => some (.int i)
  | .int _, "imag" => some (.int 0)
  | .int _, "denominator" => some (.int 1)
  | .float x, "real" => some (.float x)
  | .float _, "imag" => some (.float 0)
  | _, _ => none

/-- A member of a value of a built-in kind. -/
def ofKind (v : Value) (name : String) : Run Value := do
  let found : Option Value ← match ← Run.classOf v with
    | .kind k => pure ((kindWith? k name).map fun _ => .method v name)
    | _ => pure none
  match found with
  | some m => return m
  | none =>
    match v, name with
    | .native f, "__name__" | .native f, "__qualname__" => return .str f.name
    | .method _ n, "__name__" | .unbound _ n, "__name__" => return .str n
    | .slice a _ _, "start" => return a
    | .slice _ b _, "stop" => return b
    | .slice _ _ c, "step" => return c
    | .range a _ _, "start" => return .int a
    | .range _ b _, "stop" => return .int b
    | .range _ _ c, "step" => return .int c
    | .bound self _, "__self__" => return self
    | .bound _ f, "__func__" => return f
    | .bound _ (.ref a), "__name__" =>
      match ← Run.object? a with
      | some (.function f) => return .str f.name
      | _ => missing v name
    | _, _ =>
      match (v.number?.bind fun n => ofNumber? n name), ← common? v name with
      | some m, _ | none, some m => return m
      | none, none => missing v name

/-- The member of a value under a name. -/
def get (ops : Ops) (v : Value) (name : String) : Run Value := do
  match v with
  | .kind _ => ofClass v name
  | .behind cls self =>
    let line ← Run.lineage (← Run.classOf self)
    let rest := (line.dropWhile (!·.same cls)).drop 1
    match ← fromClasses? name rest with
    | some m => bound ops self m
    | none => Run.failWith .attributeError s!"'super' object has no attribute '{name}'"
  | .ref a =>
    match ← Run.object? a with
    | some (.instance i) => ofInstance ops v i name
    | some (.cls _) => ofClass v name
    | some (.function f) => ofFunction v f name
    | _ => ofKind v name
  | _ => ofKind v name

/-- Raises the exception for a member that cannot be written. -/
def readOnly (v : Value) (name : String) : Run Unit := do
  match ← Run.classOf v with
  | .kind k =>
    if (kindWith? k name).isSome then
      Run.failWith .attributeError s!"'{k.name}' object attribute '{name}' is read-only"
    else missing v name
  | _ => missing v name

/-- Writes a member of a value. -/
def set (ops : Ops) (v : Value) (name : String) (m : Value) : Run Unit := do
  match v with
  | .kind k =>
    Run.typeError s!"cannot set '{name}' attribute of immutable type '{k.name}'"
  | .ref a =>
    match ← Run.object? a with
    | some (.instance i) =>
      match i.cls with
      | .kind (.context .bare) | .kind (.context .incomplete) => missing v name
      | _ =>
        match ← Run.userMember? i.cls name with
        | some (.wrapped .property _) =>
          Run.failWith .attributeError
            s!"property '{name}' of '{← Run.nameOf i.cls}' object has no setter"
        | _ =>
          match ← ops.special? v "__setattr__" [.str name, m] with
          | some _ => return ()
          | none =>
            if name = "args" && (← Run.isExceptionClass i.cls) then
              Run.store a (.instance { i with args := ← Iterate.items ops m })
            else Run.store a (.instance { i with members := i.members.insert name m })
    | some (.cls c) => Run.store a (.cls { c with members := c.members.insert name m })
    | some (.function f) =>
      Run.store a (.function { f with members := f.members.insert name m })
    | _ => readOnly v name
  | _ => readOnly v name

/-- Removes a member of a value. -/
def delete (v : Value) (name : String) : Run Unit := do
  match v with
  | .ref a =>
    match ← Run.object? a with
    | some (.instance i) =>
      if (i.members.find? name).isSome then
        Run.store a (.instance { i with members := i.members.erase name })
      else Run.failWith .attributeError name
    | some (.cls c) =>
      if (c.members.find? name).isSome then
        Run.store a (.cls { c with members := c.members.erase name })
      else missing v name
    | _ => readOnly v name
  | _ => readOnly v name

end Stencil.Script.Member
