import Stencil.Script.Ops
import Stencil.Script.Value.Numeral
import Stencil.Script.Value.Basic

/-!
# The text of values

Every value has two texts: the one it is shown by inside containers, in which strings are quoted, and
the plain one. A class may define either. A container that holds itself is shown as an ellipsis inside
itself.
-/

namespace Stencil.Script.Show

/-- Joins texts by a separator. -/
def joined (separator : String) (texts : List String) : String :=
  String.intercalate separator texts

/-- The texts of a list of values, in order. -/
def each (ops : Ops) (vs : List Value) : Run (List String) :=
  vs.mapM ops.repr

/-- A place in memory as text. -/
def address (a : Address) : String :=
  "0x7f" ++ String.ofList (Text.hexDigits 10 (64 * a.index))

/-- Bytes between quotes. -/
def bytes (b : List Nat) : String :=
  let t := b.map Char.ofNat
  let mark := Text.quoteMark t
  let shown (n : Nat) : Text :=
    let c := Char.ofNat n
    if c = mark || c = '\\' then ['\\', c]
    else if c = '\n' then ['\\', 'n']
    else if c = '\r' then ['\\', 'r']
    else if c = '\t' then ['\\', 't']
    else if 32 ≤ n && n < 127 then [c]
    else '\\' :: 'x' :: Text.hexDigits 2 n
  "b" ++ String.ofList (mark :: b.flatMap shown ++ [mark])

/-- Writes the text of a container unless it is being written already. -/
def guarded (a : Address) (cycle : String) (body : Run String) : Run String := do
  let m ← get
  if m.showing.contains a then return cycle
  set { m with showing := a :: m.showing }
  let restore : Run Unit := modify ({ · with showing := m.showing })
  tryCatch
    (do
      let s ← body
      restore
      return s)
    fun e => do
      restore
      throw e

/-- The entries of a dictionary as text. -/
def entries (ops : Ops) (es : Entries) : Run String := do
  let shown ← es.mapM fun (k, v) => do
    let k ← ops.repr k
    return k ++ ": " ++ (← ops.repr v)
  return "\x7b" ++ joined ", " shown ++ "\x7d"

/-- Values in parentheses; a single one is followed by a comma. -/
def tuple (ops : Ops) (vs : List Value) : Run String := do
  match ← each ops vs with
  | [s] => return "(" ++ s ++ ",)"
  | ss => return "(" ++ joined ", " ss ++ ")"

/-- The text of an object that shows nothing of itself but its class and place. -/
def plainObject (a : Address) (cls : Value) : Run String := do
  return s!"<{← Run.nameOf cls} object at {address a}>"

/-- The text that a method of a class gives. -/
def fromMethod (name : String) (result : Value) : Run String := do
  match result with
  | .str s => return s
  | v => Run.typeError s!"{name} returned non-string (type {← Run.kindName v})"

/-- The shown text of an exception: its class and the values it carries. -/
def shownException (ops : Ops) (i : Instance) : Run String := do
  return (← Run.nameOf i.cls) ++ "(" ++ joined ", " (← each ops i.args) ++ ")"

/-- The shown text of an object of a class. -/
def objectOf (ops : Ops) (a : Address) (i : Instance) : Run String := do
  match ← ops.special? (.ref a) "__repr__" [] with
  | some r => fromMethod "__repr__" r
  | none =>
    match i.cls with
    | .kind (.context .text) | .kind (.context .html) =>
      return (← Run.nameOf i.cls) ++ "(" ++
        (← ops.repr ((i.members.find? "_vars").getD .none)) ++ ")"
    | _ =>
      if ← Run.isExceptionClass i.cls then shownException ops i else plainObject a i.cls

/-- The shown text of an object. -/
def object (ops : Ops) (a : Address) : Run String := do
  match ← Run.object? a with
  | some (.list xs) =>
    guarded a "[...]" do
      return "[" ++ joined ", " (← each ops xs.toList) ++ "]"
  | some (.dict es) => guarded a "\x7b...\x7d" (entries ops es)
  | some (.set frozen xs) =>
    let shown ← each ops (Value.arranged xs)
    let inner := "\x7b" ++ joined ", " shown ++ "\x7d"
    return if frozen then "frozenset(" ++ (if xs.isEmpty then "" else inner) ++ ")"
      else if xs.isEmpty then "set()" else inner
  | some (.function f) => return s!"<function {f.path} at {address a}>"
  | some (.cls c) => return s!"<class '{c.name}'>"
  | some (.instance i) => objectOf ops a i
  | some (.generator g) => return s!"<generator object {g.name} at {address a}>"
  | some (.iterator _) => plainObject a (← Run.classOf (.ref a))
  | _ => return s!"<object at {address a}>"

/-- The shown text of a value. -/
def repr (ops : Ops) (v : Value) : Run String := do
  match v with
  | .none => return "None"
  | .ellipsis => return "Ellipsis"
  | .notImplemented => return "NotImplemented"
  | .bool b => return if b then "True" else "False"
  | .int i => Run.lift (Numeral.decimal i)
  | .float x => return Decimal.floatText x
  | .str s => return Text.quotedString s
  | .bytes b => return bytes b
  | .tuple vs => tuple ops vs
  | .range a b c =>
    return if c = 1 then s!"range({a}, {b})" else s!"range({a}, {b}, {c})"
  | .slice a b c => return "slice(" ++ joined ", " (← each ops [a, b, c]) ++ ")"
  | .native f =>
    match f with
    | .escaper _ | .plainText => return s!"<function {f.name} at {address ⟨0⟩}>"
    | _ => return s!"<built-in function {f.name}>"
  | .kind k => return s!"<class '{k.name}'>"
  | .method self name =>
    return s!"<built-in method {name} of {← Run.kindName self} object at {address ⟨0⟩}>"
  | .unbound k name => return s!"<method '{name}' of '{k.name}' objects>"
  | .bound self f =>
    let path ← match f with
      | .ref a => do match ← Run.object? a with
        | some (.function g) => pure g.path
        | _ => pure "?"
      | _ => pure "?"
    return s!"<bound method {path} of {← ops.repr self}>"
  | .view what a =>
    let es ← Run.entries a
    let name ← Run.kindName v
    let shown ← match what with
      | .keys => each ops (es.map (·.1))
      | .values => each ops (es.map (·.2))
      | .items => es.mapM fun (k, w) => tuple ops [k, w]
    return name ++ "([" ++ joined ", " shown ++ "])"
  | .wrapped how _ => return s!"<{how.name} object at {address ⟨0⟩}>"
  | .foreign _ _ shown => return shown
  | .behind cls self => return s!"<super: {← ops.repr cls}, <{← Run.kindName self} object>>"
  | .ref a => object ops a

/-- The plain text of an exception: of the one value it carries, or of all together. A missing key is
shown as inside containers. -/
def exception (ops : Ops) (i : Instance) : Run String := do
  match i.args with
  | [] => return ""
  | [v] =>
    if ← Run.isSubclass i.cls (.kind (.exception .keyError)) then ops.repr v else ops.str v
  | [n, v] =>
    if ← Run.isSubclass i.cls (.kind (.exception .osError)) then
      return s!"[Errno {← ops.str n}] {← ops.str v}"
    else tuple ops [n, v]
  | vs => tuple ops vs

/-- The plain text of a value. -/
def str (ops : Ops) (v : Value) : Run String := do
  match v with
  | .str s => return s
  | .foreign _ plain _ => return plain
  | .ref a =>
    match ← Run.object? a with
    | some (.instance i) =>
      match ← ops.special? v "__str__" [] with
      | some r => fromMethod "__str__" r
      | none =>
        if ← Run.isExceptionClass i.cls then exception ops i
        else ops.repr v
    | _ => ops.repr v
  | _ => ops.repr v

end Stencil.Script.Show
