import Stencil.Script.Check.Names
import Stencil.Script.Ops

/-!
# Names at run time

Finds out which names a body binds, and reads, writes and removes the value of a name: in the cell of a
variable, in the namespace of a class body, or among the globals. Names that nothing binds may be those
of built-in functions and kinds.
-/

namespace Stencil.Script.Scope

/-- Trees are walked down to this depth, which no script exceeds. -/
def depth : Nat := 1000000

/-- The uses of names in a body, those first used last. -/
def usesOf (params : List Param) (walk : Walk Unit) : List NameUse :=
  let all : Walk Unit := do
    params.forM fun p => Walk.parameter p.id p.line
    walk
  match all.run [Scope.empty .function false] with
  | .ok (_, s :: _) => s.names.reverse
  | _ => []

/-- The names that a function binds: its parameters first. -/
def localsOf (params : List Param) (uses : List NameUse) : List String :=
  let bound := (uses.filter fun u => u.bound && !u.global && !u.nonlocal).map (·.id)
  let ps := params.map Param.id
  ps ++ bound.filter (!ps.contains ·)

/-- The names that a body declares to be global. -/
def globalsOf (uses : List NameUse) : List String :=
  (uses.filter (·.global)).map (·.id)

/-- The uses of names in the statements of a function. -/
def usesOfBody (params : List Param) (body : List Stmt) : List NameUse :=
  usesOf params (body.forM (walkStmt depth))

/-- The names that the targets of a comprehension bind. -/
def targetNames (clauses : List Clause) : List String :=
  let uses := usesOf [] <| clauses.forM fun
    | .mk _ _ target _ _ => walkExpr depth true target
  localsOf [] uses

mutual

/-- Whether an expression gives values, functions within it aside. -/
def yieldsExpr : Nat → Expr → Bool
  | 0, _ => false
  | n + 1, e =>
    match e with
    | .yieldValue _ _ | .yieldFrom _ _ => true
    | _ => e.parts.any (yieldsExpr n)

/-- Whether a statement gives values, functions and classes within it aside. -/
def yieldsStmt : Nat → Stmt → Bool
  | 0, _ => false
  | n + 1, s =>
    let body (ss : List Stmt) : Bool := ss.any (yieldsStmt n)
    let value (e : Option Expr) : Bool := e.any (yieldsExpr n)
    match s with
    | .expr _ e => yieldsExpr n e
    | .assign _ ts v => ts.any (yieldsExpr n) || yieldsExpr n v
    | .augment _ t _ v => yieldsExpr n t || yieldsExpr n v
    | .declare _ t _ v _ => yieldsExpr n t || value v
    | .delete _ ts => ts.any (yieldsExpr n)
    | .ret _ v => value v
    | .raise _ v c => value v || value c
    | .assert _ t m => yieldsExpr n t || value m
    | .ifElse _ t b o | .whileLoop _ t b o => yieldsExpr n t || body b || body o
    | .forLoop _ _ t i b o => yieldsExpr n t || yieldsExpr n i || body b || body o
    | .withBlock _ _ items b => items.any (fun i => yieldsExpr n i.1) || body b
    | .tryBlock _ _ b hs o f =>
      body b || body o || body f || hs.any fun
        | .mk _ k _ hb => value k || body hb
    | .matchCases _ e cases =>
      yieldsExpr n e || cases.any fun
        | .mk _ g b => value g || body b
    | _ => false

end

/-- The built-in value of a name. -/
def builtin? (id : String) : Option Value :=
  match Native.named.find? (·.name == id) with
  | some f => some (.native f)
  | none =>
    match id with
    | "NotImplemented" => some .notImplemented
    | "Ellipsis" => some .ellipsis
    | "__name__" => some (.str "builtins")
    | "__debug__" => some (.bool true)
    | _ => (Kind.ofName? id).map .kind

/-- The cell of a variable, unless its name is declared global. -/
def variableOf? (env : Env) (id : String) : Option Variable :=
  if env.globalNames.contains id then none else env.visible.find? (·.name == id)

/-- Raises the exception for a name without a value. -/
def undefined {α : Type} (id : String) : Run α :=
  Run.failWith .nameError s!"name '{id}' is not defined"

/-- Raises the exception for a variable without a value. -/
def unbound {α : Type} (v : Variable) : Run α :=
  if v.own then
    Run.failWith .unboundLocalError
      s!"cannot access local variable '{v.name}' where it is not associated with a value"
  else
    Run.failWith .nameError (s!"cannot access free variable '{v.name}' where it is not " ++
      "associated with a value in enclosing scope")

/-- The value of a name among the globals and the built-in values. -/
def global (id : String) : Run Value := do
  match (← Run.entries (← get).globals).named? id with
  | some v => return v
  | none =>
    match builtin? id with
    | some v => return v
    | none => undefined id

/-- The value of a name in a namespace of a class body. -/
def inSpace? (a : Address) (id : String) : Run (Option Value) := do
  match ← Run.object? a with
  | some (.space names) => return names.find? id
  | some (.handedOut d) => return (← Run.entries d).named? id
  | _ => return none

/-- The value of a name in the namespace of the class body around. -/
def inNamespace? (env : Env) (id : String) : Run (Option Value) := do
  match env.namespaceAt with
  | some a => if env.globalNames.contains id then return none else inSpace? a id
  | none => return none

/-- The value of a name. -/
def read (env : Env) (id : String) : Run Value := do
  match ← inNamespace? env id with
  | some v => return v
  | none =>
    match variableOf? env id with
    | some x =>
      match ← Run.cell x.cell with
      | some v => return v
      | none => unbound x
    | none => global id

/-- Writes an entry of a namespace. -/
def writeEntry (a : Address) (id : String) (v : Value) : Run Unit :=
  Run.change a fun
    | .dict es => .dict (es.insert (.str id) v)
    | o => o

/-- Writes the value of a name in a namespace of a class body. -/
def writeInSpace (a : Address) (id : String) (v : Value) : Run Unit := do
  match ← Run.object? a with
  | some (.space names) => Run.store a (.space (names.insert id v))
  | some (.handedOut d) => writeEntry d id v
  | _ => return ()

/-- Writes the value of a name. -/
def write (env : Env) (id : String) (v : Value) : Run Unit := do
  match (if env.globalNames.contains id then none else env.namespaceAt) with
  | some a => writeInSpace a id v
  | none =>
    match variableOf? env id with
    | some x => Run.store x.cell (.cell (some v))
    | none => writeEntry (← get).globals id v

/-- Removes an entry of a namespace. -/
def removeEntry (a : Address) (id : String) : Run Unit := do
  let es ← Run.entries a
  match es.named? id with
  | some _ => Run.store a (.dict (es.erase (.str id)))
  | none => undefined id

/-- Removes the value of a name from a namespace of a class body. -/
def removeFromSpace (a : Address) (id : String) : Run Unit := do
  match ← Run.object? a with
  | some (.space names) =>
    if (names.find? id).isSome then Run.store a (.space (names.erase id)) else undefined id
  | some (.handedOut d) => removeEntry d id
  | _ => undefined id

/-- Removes the value of a name. -/
def remove (env : Env) (id : String) : Run Unit := do
  match (if env.globalNames.contains id then none else env.namespaceAt) with
  | some a => removeFromSpace a id
  | none =>
    match variableOf? env id with
    | some x =>
      match ← Run.cell x.cell with
      | some _ => Run.store x.cell (.cell none)
      | none => unbound x
    | none => removeEntry (← get).globals id

/-- The variables that a function defined here sees. -/
def captured (env : Env) : List Variable :=
  (env.visible.filter fun x => !env.globalNames.contains x.name).map ({ · with own := false })

end Stencil.Script.Scope
