import Stencil.Script.Binding
import Stencil.Script.Method.Collection
import Stencil.Escape

/-!
# The methods of contexts

A context holds the bindings of a template and an escape. Most kinds keep their bindings in a
dictionary of their own, under names that are strings; one uses its members instead. The escape of a
context is a member where it has been replaced, and belongs to its kind otherwise.
-/

namespace Stencil.Script

/-- The text of a value in the output: nothing for a missing value. -/
def plainText (ops : Ops) (v : Value) : Run String := do
  match v with
  | .none => return ""
  | .str s => return s
  | _ => ops.str v

/-- The text of a value by an escaper. -/
def Escaper.apply (ops : Ops) (e : Escaper) (v : Value) : Run Value := do
  match e with
  | .html => return .str (Escape.htmlString (← plainText ops v))
  | .text => return .str (← plainText ops v)
  | .upper => return .str (String.ofList (Text.upper (← ops.str v).toList))
  | .bracket => return .str ("[" ++ (← ops.str v) ++ "]")
  | .identity => return v

namespace ContextMethod

/-- The member under which a context of its own store keeps it. -/
def store : ContextKind → Option String
  | .text | .html => some "_vars"
  | .keyed => some "_store"
  | _ => none

/-- The member under which a context keeps its escaper. -/
def escaperMember : ContextKind → String
  | .text | .html => "escaper"
  | _ => "_esc"

/-- A parameter that must be given. -/
def required (id : String) : ParamSlot := ⟨.plain, id, none⟩

/-- A parameter that is missing when it is not given. -/
def optional (id : String) : ParamSlot := ⟨.plain, id, some .none⟩

/-- The parameters of a method besides the context itself, if contexts of a kind have it. -/
def params? (k : ContextKind) (name : String) : Option (List ParamSlot) :=
  let kept := k == .text || k == .html
  match name with
  | "get" => some [required "name", optional "default"]
  | "set" => some [required "name", required "value"]
  | "escape" => if k == .incomplete then none else some [required "value"]
  | "keys" => if kept || k == .keyed then some [] else none
  | "items" | "__iter__" | "__len__" | "__repr__" => if kept then some [] else none
  | "__getitem__" | "__contains__" | "__getattr__" => if kept then some [required "name"] else none
  | "__setitem__" => if kept then some [required "name", required "value"] else none
  | _ => none

/-- The name of a kind in the paths of its methods. -/
def pathOf : ContextKind → String
  | .html => ContextKind.text.name
  | k => k.name

/-- The path of a kind together with where contexts are defined. -/
def fullPathOf (k : ContextKind) : String :=
  match k with
  | .text | .html => "embtext.lib.context." ++ pathOf k
  | _ => pathOf k

/-- The dictionary of a context. -/
def dict? (k : ContextKind) (i : Instance) : Option Address :=
  match (store k).bind i.members.find? with
  | some (.ref a) => some a
  | _ => none

/-- Raises the exception for a name that is no string. -/
def memberName (v : Value) : Run String := do
  match v with
  | .str s => return s
  | _ => Run.typeError s!"attribute name must be string, not '{← Run.kindName v}'"

/-- What a context escapes a value to. -/
def escape (ops : Ops) (k : ContextKind) (i : Instance) (v : Value) : Run Value := do
  match i.members.find? (escaperMember k) with
  | some f => ops.call f [v] []
  | none => Escaper.apply ops (if k == .html then .html else .text) v

/-- Reads a binding. -/
def lookup (ops : Ops) (k : ContextKind) (a : Address) (i : Instance) (name alternative : Value) :
    Run Value := do
  match k with
  | .text | .html | .keyed =>
    match dict? k i with
    | some d => return (← DictMethod.lookup? d name).getD alternative
    | none => return alternative
  | .duck =>
    let name ← memberName name
    Run.catching (ops.member (.ref a) name) fun e => do
      if ← Run.isException e .attributeError then return alternative else throw (.raised e)
  | .bare | .incomplete => return alternative

/-- Writes a binding. -/
def insert (ops : Ops) (k : ContextKind) (a : Address) (i : Instance) (name v : Value) :
    Run Unit := do
  match k with
  | .text | .html =>
    match dict? k i with
    | some d => Item.setEntry d (.str (← ops.str name)) v
    | none => return ()
  | .keyed =>
    match dict? k i with
    | some d => Item.setEntry d name v
    | none => return ()
  | .duck =>
    let name ← memberName name
    Run.store a (.instance { i with members := i.members.insert name v })
  | .bare | .incomplete => return ()

/-- Calls a method of a context. -/
def call (ops : Ops) (k : ContextKind) (a : Address) (name : String) (args : List Value)
    (named : Members) : Run Value := do
  let i ← match ← Run.object? a with
    | some (.instance i) => pure i
    | _ => pure ⟨.none, [], [], none⟩
  let slots := required "self" :: (params? k name).getD []
  let bound ← Binding.bind s!"{pathOf k}.{name}" slots (.ref a :: args) named
  let arg (n : String) : Value := (bound.find? n).getD .none
  match name with
  | "get" => lookup ops k a i (arg "name") (arg "default")
  | "set" | "__setitem__" =>
    insert ops k a i (arg "name") (arg "value")
    return .none
  | "escape" => escape ops k i (arg "value")
  | "keys" =>
    match dict? k i with
    | some d => if k == .keyed then Run.newList ((← Run.entries d).map (·.1)) else return .view .keys d
    | none => return .none
  | "items" => return ((dict? k i).map (.view .items)).getD .none
  | "__iter__" => Iterate.start ops (.ref a)
  | "__len__" =>
    match dict? k i with
    | some d => return .int (← Run.entries d).length
    | none => return .int 0
  | "__contains__" => return .bool (← Item.contains ops (.ref a) (arg "name"))
  | "__getitem__" => Item.get ops (.ref a) (arg "name")
  | "__getattr__" =>
    match dict? k i with
    | some d =>
      match (← Run.entries d).find? (arg "name") with
      | some v => return v
      | none => Run.fail ⟨.attributeError, [arg "name"]⟩
    | none => return .none
  | _ => return .str (← ops.repr (.ref a))

end ContextMethod

end Stencil.Script
