import Stencil.Script.Scope
import Stencil.Script.Call

/-!
# Evaluating expressions

Operands are evaluated from the left. The line of a node is noted right before its operation is carried
out, so that a failure is reported on the line of the operation that failed: for a member the line of
its name, else the line on which the expression starts.

A comprehension is a function of its own: its clauses become loops whose innermost body gives the items.
-/

namespace Stencil.Script.Eval

/-- The value of a constant. -/
def constant (c : Constant) : Value :=
  match c with
  | .none => .none
  | .bool b => .bool b
  | .ellipsis => .ellipsis
  | .int n => .int n
  | .float x => .float x
  | .imaginary x =>
    let s := Number.complexText 0 x
    .foreign "complex" s s
  | .str s => .str s
  | .bytes b => .bytes b

/-- The values of a list of expressions, of which some are unpacked. -/
def all (ops : Ops) (env : Env) (line : Nat) (unpack : Value → Run Value) :
    List Expr → Run (List Value)
  | [] => return []
  | .star _ e :: rest => do
    let v ← ops.eval env e
    Run.atLine line
    let items ← ops.drain (← unpack v)
    return items.toList ++ (← all ops env line unpack rest)
  | e :: rest => do
    let v ← ops.eval env e
    return v :: (← all ops env line unpack rest)

/-- An iterator over a value that is unpacked in a display. -/
def unpacked (ops : Ops) (v : Value) : Run Value :=
  Run.catching (Iterate.start ops v) fun e => do
    if ← Run.isException e .typeError then
      Run.typeError s!"Value after * must be an iterable, not {← Run.kindName v}"
    else throw (.raised e)

/-- The value of a display. -/
def display (ops : Ops) (env : Env) (line : Nat) (kind : DisplayKind) (items : List Expr) :
    Run Value := do
  match kind with
  | .tuple => return .tuple (← all ops env line (unpacked ops) items)
  | .list => Run.newList (← all ops env line (unpacked ops) items)
  | .set =>
    let vs ← all ops env line (Iterate.start ops) items
    Run.atLine line
    vs.forM Item.checkKey
    Run.alloc (.set false (Operator.distinct vs))

/-- The entries of a mapping that is unpacked. -/
def mappingEntries? (ops : Ops) (v : Value) : Run (Option Entries) := do
  match v with
  | .ref a =>
    match ← Run.object? a with
    | some (.dict es) => return some es
    | some (.instance i) =>
      match Item.bindingsOf? i with
      | some d => return some (← Run.entries d)
      | none =>
        match ← ops.special? v "keys" [] with
        | some keys =>
          let keys ← Iterate.items ops keys
          let es ← keys.mapM fun k => do return (k, ← Item.get ops v k)
          return some es
        | none => return none
    | _ => return none
  | _ => return none

/-- Evaluates the items of a dictionary into it. -/
def dictItems (ops : Ops) (env : Env) (line : Nat) (a : Address) :
    List (Option Expr × Expr) → Run Unit
  | [] => return ()
  | (some k, e) :: rest => do
    let key ← ops.eval env k
    let v ← ops.eval env e
    Run.atLine line
    Item.setEntry a key v
    dictItems ops env line a rest
  | (none, e) :: rest => do
    let v ← ops.eval env e
    Run.atLine line
    match ← mappingEntries? ops v with
    | some fs =>
      Run.change a fun
        | .dict es => .dict (fs.foldl (fun es (k, v) => es.insert k v) es)
        | o => o
    | none => Run.typeError s!"'{← Run.kindName v}' object is not a mapping"
    dictItems ops env line a rest

/-- The value of a chain of `and` or of `or`: that of the operand that decides it. -/
def logic (ops : Ops) (env : Env) (line : Nat) (conjunction : Bool) : List Expr → Run Value
  | [] => return .none
  | [e] => ops.eval env e
  | e :: rest => do
    let v ← ops.eval env e
    Run.atLine line
    if (← ops.truthy v) = conjunction then logic ops env line conjunction rest else return v

/-- The value of a chain of comparisons: that of the first one that fails, or of the last. -/
def comparisons (ops : Ops) (env : Env) (line : Nat) (left : Value) :
    List (CompareOp × Expr) → Run Value
  | [] => return left
  | [(op, e)] => do
    let right ← ops.eval env e
    Run.atLine line
    Operator.compare ops op left right
  | (op, e) :: rest => do
    let right ← ops.eval env e
    Run.atLine line
    let r ← Operator.compare ops op left right
    if ← ops.truthy r then comparisons ops env line right rest else return r

/-- What a callee is called in messages about its arguments. -/
def calleeName (callee : Value) : Run String := do
  match callee with
  | .native f => return f.fullName ++ "()"
  | .kind k => return k.name ++ "()"
  | .method self name =>
    match ← Run.classOf self with
    | .kind (.context k) => return s!"{ContextMethod.fullPathOf k}.{name}()"
    | cls => return s!"{← Run.nameOf cls}.{name}()"
  | .bound _ (.ref a) | .ref a =>
    match ← Run.object? a with
    | some (.function f) => return f.path ++ "()"
    | some (.cls c) => return c.name ++ "()"
    | _ => return s!"{← Run.kindName callee} object"
  | _ => return s!"{← Run.kindName callee} object"

/-- Adds named arguments, none of which may be there already. -/
def addNamed (callee : Value) (named : Members) : List (Value × Value) → Run Members
  | [] => return named
  | (k, v) :: rest => do
    match k with
    | .str name =>
      if (named.find? name).isSome then
        Run.typeError
          s!"{← calleeName callee} got multiple values for keyword argument '{name}'"
      addNamed callee (named ++ [(name, v)]) rest
    | _ => Run.typeError "keywords must be strings"

/-- Evaluates the positional arguments of a call. -/
def positionalArguments (ops : Ops) (env : Env) (line : Nat) :
    List Argument → List Value → Run (List Value)
  | [], args => return args
  | .positional e :: rest, args => do
    let v ← ops.eval env e
    positionalArguments ops env line rest (args ++ [v])
  | .star e :: rest, args => do
    let v ← ops.eval env e
    Run.atLine line
    let items ← ops.drain (← unpacked ops v)
    positionalArguments ops env line rest (args ++ items.toList)
  | _ :: rest, args => positionalArguments ops env line rest args

/-- Evaluates the named arguments of a call. -/
def namedArguments (ops : Ops) (env : Env) (line : Nat) (callee : Value) :
    List Argument → Members → Run Members
  | [], named => return named
  | .named _ id e :: rest, named => do
    let v ← ops.eval env e
    namedArguments ops env line callee rest (← addNamed callee named [(.str id, v)])
  | .doubleStar e :: rest, named => do
    let v ← ops.eval env e
    Run.atLine line
    match ← mappingEntries? ops v with
    | some es => namedArguments ops env line callee rest (← addNamed callee named es)
    | none =>
      Run.typeError (s!"{← calleeName callee} argument after ** must be a mapping, " ++
        s!"not {← Run.kindName v}")
  | _ :: rest, named => namedArguments ops env line callee rest named

/-- The items of the only positional argument of a call, which is unpacked. -/
def onlyItems (ops : Ops) (line : Nat) (callee v : Value) : Run (List Value) := do
  Run.atLine line
  let iterator ← Run.catching (Iterate.start ops v) fun exception => do
    if ← Run.isException exception .typeError then
      Run.typeError (s!"{← calleeName callee} argument after * must be an iterable, " ++
        s!"not {← Run.kindName v}")
    else throw (.raised exception)
  return (← ops.drain iterator).toList

/-- Evaluates the arguments of a call: the positional ones come before the named ones. A value that is
unpacked as the only positional argument is gone through last. -/
def arguments (ops : Ops) (env : Env) (line : Nat) (callee : Value) (args : List Argument) :
    Run (List Value × Members) := do
  let byPosition := args.filter fun
    | .positional _ | .star _ => true
    | _ => false
  match byPosition with
  | [.star e] =>
    let v ← ops.eval env e
    let named ← namedArguments ops env line callee args []
    return (← onlyItems ops line callee v, named)
  | _ =>
    let vs ← positionalArguments ops env line args []
    let named ← namedArguments ops env line callee args []
    return (vs, named)

/-- Whether an argument is unpacked. -/
def isUnpacked : Argument → Bool
  | .star _ | .doubleStar _ => true
  | _ => false

/-- The object of the classes behind the one in whose method a call stands. -/
def behind (env : Env) : Run Value := do
  match env.visible.find? (·.name == "__class__"), env.visible.head? with
  | some c, some self =>
    match ← Run.cell c.cell, ← Run.cell self.cell with
    | some cls, some v => return .behind cls v
    | _, _ => Run.failWith .runtimeError "super(): no arguments"
  | _, _ => Run.failWith .runtimeError "super(): no arguments"

/-- The names that have a value here, as a dictionary. -/
def visible (env : Env) : Run Value := do
  match env.namespaceAt with
  | some a =>
    match ← Run.object? a with
    | some (.space names) =>
      let d ← Run.newDict (names.map fun (n, v) => (.str n, v))
      match d with
      | .ref b => Run.store a (.handedOut b)
      | _ => pure ()
      return d
    | some (.handedOut d) => return .ref d
    | _ => Run.newDict []
  | none =>
    if env.visible.isEmpty then return .ref (← get).globals
    else
      let known ← env.visible.filterMapM fun x => do
        return (← Run.cell x.cell).map fun v => ((.str x.name, v) : Value × Value)
      Run.newDict known

/-- The value of a call. -/
def call (ops : Ops) (env : Env) (line : Nat) (callee : Expr) (args : List Argument) :
    Run Value := do
  let f ← ops.eval env callee
  let (vs, named) ← arguments ops env line f args
  let callLine : Nat := match callee with
    | .member _ _ _ idLine => if args.any isUnpacked then line else idLine
    | _ => line
  Run.atLine callLine
  match f, vs with
  | .native .super, [] => behind env
  | .native .locals, [] => visible env
  | _, _ => ops.call f vs named

/-- A bound of a slice. -/
def bound (ops : Ops) (env : Env) (e : Option Expr) : Run Value :=
  match e with
  | some e => ops.eval env e
  | none => return .none

/-- The parameters of a function with the values they take without an argument. Those that can be given
by position are evaluated first. -/
def slots (ops : Ops) (env : Env) (params : List Param) : Run (List ParamSlot) := do
  let value (p : Param) : Run (String × Option Value) := do
    match p.default with
    | some e => return (p.id, some (← ops.eval env e))
    | none => return (p.id, none)
  let first ← (params.filter (·.kind != .nameOnly)).mapM value
  let last ← (params.filter (·.kind == .nameOnly)).mapM value
  return params.map fun p => ⟨p.kind, p.id, ((first ++ last).lookup p.id).join⟩

/-- A new function whose definition starts on a line. -/
def function (ops : Ops) (env : Env) (line : Nat) (name : String) (params : List Param)
    (body : List Stmt) : Run Value := do
  let slots ← slots ops env params
  let uses := Scope.usesOfBody params body
  Run.alloc (.function {
    name, path := env.path ++ name, line, params := slots, body
    locals := Scope.localsOf params uses
    globalNames := Scope.globalsOf uses
    captured := Scope.captured env
    yields := body.any (Scope.yieldsStmt Scope.depth)
    members := [] })

/-- The name of the hidden variable that holds the first source of a comprehension. -/
def hiddenSource : String := ".0"

/-- The loops that the clauses of a comprehension stand for, around the innermost statement. -/
def loops (line : Nat) (inner : Stmt) : Bool → List Clause → List Stmt
  | _, [] => [inner]
  | first, .mk _ _ target source conditions :: rest =>
    let body := loops line inner false rest
    let body := conditions.foldr (fun c body => [Stmt.ifElse c.line c body []]) body
    [.forLoop line false target (if first then .name line hiddenSource else source) body []]

/-- The environment and the body of a comprehension whose items are the values of an expression. The
first source is evaluated at once. -/
def comprehension (ops : Ops) (env : Env) (line : Nat) (name : String) (element : Expr)
    (clauses : List Clause) : Run (Env × List Stmt) := do
  match clauses with
  | [] => return (env, [])
  | .mk _ _ _ source _ :: _ =>
    let v ← ops.eval env source
    Run.atLine line
    let iterator ← Iterate.start ops v
    let names := hiddenSource :: Scope.targetNames clauses
    let own ← names.mapM fun id => do
      match ← Run.alloc (.cell (if id = hiddenSource then some iterator else none)) with
      | .ref a => return (⟨id, a, true⟩ : Variable)
      | _ => return ⟨id, ⟨0⟩, true⟩
    let inner := Stmt.expr element.line (.yieldValue element.line (some element))
    let globalNames := env.globalNames.filter (!names.contains ·)
    return (⟨own ++ Scope.captured env, globalNames, none, env.path ++ name ++ ".<locals>."⟩,
      loops line inner true clauses)

/-- The values that a body gives up to its end. -/
def collect (ops : Ops) (env : Env) : Nat → Signal → List Task → Array Value → Run (Array Value)
  | 0, _, _, _ => throw .exhausted
  | n + 1, signal, tasks, acc => do
    match ← ops.resume env signal tasks with
    | .finished _ => return acc
    | .yielded v rest => collect ops env n (.sent .none) rest (acc.push v)

/-- The items of a comprehension. -/
def gathered (ops : Ops) (env : Env) (line : Nat) (name : String) (element : Expr)
    (clauses : List Clause) : Run (List Value) := do
  let (inner, body) ← comprehension ops env line name element clauses
  let vs ← Run.nested (collect ops inner ops.steps .proceed [.run body] #[])
  return vs.toList

/-- The text of a part of a string with fields. -/
def part (ops : Ops) (env : Env) (line : Nat) : Nat → Part → Run String
  | 0, _ => return ""
  | _, .text s => return s
  | n + 1, .field e conversion format => do
    let v ← ops.eval env e
    let specs ← format.mapM (part ops env line n)
    Run.atLine line
    let v ← Fields.converted ops conversion v
    ops.format v (String.join specs)

/-- Evaluates an expression. -/
def expr (ops : Ops) (env : Env) (e : Expr) : Run Value := do
  match e with
  | .constant _ c => return constant c
  | .name l id =>
    Run.atLine l
    Scope.read env id
  | .display l kind items => display ops env l kind items
  | .dict l items =>
    let d ← Run.newDict []
    match d with
    | .ref a => dictItems ops env l a items
    | _ => pure ()
    return d
  | .unary l op e =>
    let v ← ops.eval env e
    Run.atLine l
    Operator.unary ops op v
  | .binary l op a b =>
    let x ← ops.eval env a
    let y ← ops.eval env b
    Run.atLine l
    Operator.binary ops op x y
  | .logic l conjunction es => logic ops env l conjunction es
  | .compare l first rest => comparisons ops env l (← ops.eval env first) rest
  | .choice _ t b o =>
    let v ← ops.eval env t
    Run.atLine t.line
    if ← ops.truthy v then ops.eval env b else ops.eval env o
  | .call l f args => call ops env l f args
  | .member _ o id idLine =>
    let v ← ops.eval env o
    Run.atLine idLine
    ops.member v id
  | .subscript l o i =>
    let v ← ops.eval env o
    let index ← ops.eval env i
    Run.atLine l
    Item.get ops v index
  | .slice _ a b c => return .slice (← bound ops env a) (← bound ops env b) (← bound ops env c)
  | .star _ e => ops.eval env e
  | .lambda l ps body => function ops env l "<lambda>" ps [.ret body.line (some body)]
  | .bind _ id _ v =>
    let v ← ops.eval env v
    Scope.write env id v
    return v
  | .comprehension l .list element clauses =>
    Run.newList (← gathered ops env l "<listcomp>" element clauses)
  | .comprehension l .set element clauses =>
    let vs ← gathered ops env l "<setcomp>" element clauses
    vs.forM Item.checkKey
    Run.alloc (.set false (Operator.distinct vs))
  | .comprehension l .generator element clauses =>
    let name := "<genexpr>"
    let (inner, body) ← comprehension ops env l name element clauses
    Run.alloc (.generator
      ⟨env.path ++ name, inner, .waiting [.awaitSent l .drop, .run body], false⟩)
  | .dictComprehension l k v clauses =>
    let pairs ← gathered ops env l "<dictcomp>" (.display k.line .tuple [k, v]) clauses
    let d ← Run.newDict []
    match d with
    | .ref a =>
      pairs.forM fun
        | .tuple [key, value] => Item.setEntry a key value
        | _ => return ()
    | _ => pure ()
    return d
  | .template l parts => return .str (String.join (← parts.mapM (part ops env l 10)))
  | .yieldValue _ _ | .yieldFrom _ _ | .await _ _ => throw .exhausted

end Stencil.Script.Eval
