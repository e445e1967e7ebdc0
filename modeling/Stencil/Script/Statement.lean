import Stencil.Script.Assign
import Stencil.Script.Match
import Stencil.Script.Class

/-!
# Running statements

Statements run from a stack of tasks. A step takes the topmost task together with the signal that
reaches it, and gives the next signal and the tasks that take the place of that one, or a value that the
body gives to its caller. Loops, handlers and contexts are tasks below those of their bodies, so a
signal that leaves a body meets them on its way down.
-/

namespace Stencil.Script.Statement

/-- What a step leads to. -/
inductive Move where
  | next (signal : Signal) (tasks : List Task)
  | yield (v : Value) (tasks : List Task)

/-- Goes on with tasks. -/
def proceed (tasks : List Task) : Run Move :=
  return .next .proceed tasks

/-! ## Exceptions -/

/-- The exception that a raised value stands for: a class of exceptions makes one. -/
def exceptionOf (ops : Ops) (complaint : String) (v : Value) : Run Address := do
  let made ← if ← Run.isExceptionClass v then ops.call v [] [] else pure v
  match made with
  | .ref a =>
    if ← Run.isOfKind made (.exception .baseException) then return a else Run.typeError complaint
  | _ => Run.typeError complaint

/-- Raises a value, with another one as its cause. -/
def raise (ops : Ops) (env : Env) (line : Nat) (value cause : Option Expr) : Run Move := do
  match value with
  | none =>
    Run.atLine line
    match (← get).handling with
    | e :: _ => throw (.raised e)
    | [] => Run.failWith .runtimeError "No active exception to reraise"
  | some e =>
    let v ← ops.eval env e
    let because ← match cause with
      | some c => ops.eval env c
      | none => pure .none
    Run.atLine line
    let a ← exceptionOf ops "exceptions must derive from BaseException" v
    match because with
    | .none => pure ()
    | c =>
      let _ ← exceptionOf ops "exception causes must derive from BaseException" c
    Run.raise a

/-- Whether a class in a handler catches an exception. Tuples of classes catch what any of them does. -/
def catches (line : Nat) (exception : Address) : Nat → Value → Run Bool
  | 0, _ => return false
  | n + 1, v => do
    match v with
    | .tuple vs =>
      let rec any : List Value → Run Bool
        | [] => return false
        | v :: rest => do
          if ← catches line exception n v then return true else any rest
      any vs
    | _ =>
      if ← Run.isExceptionClass v then
        Run.isSubclass (← Run.exceptionClass exception) v
      else
        Run.typeError
          "catching classes that do not inherit from BaseException is not allowed"

/-- The first handler that catches an exception. -/
def handlerFor? (ops : Ops) (env : Env) (exception : Address) :
    List Handler → Run (Option (Option String × List Stmt))
  | [] => return none
  | .mk line kind id body :: rest => do
    match kind with
    | none => return some (id, body)
    | some e =>
      let v ← ops.eval env e
      Run.atLine line
      if ← catches line exception 100 v then return some (id, body)
      else handlerFor? ops env exception rest

/-- Notes an exception as being handled. -/
def beginHandling (exception : Address) : Run Unit :=
  modify fun m => { m with handling := exception :: m.handling }

/-- Notes that the exception handled last has been dealt with. -/
def endHandling : Run Unit :=
  modify fun m => { m with handling := m.handling.drop 1 }

/-- Ends a handler: the name of its exception is removed. -/
def leaveHandler (env : Env) (id : Option String) : Run Unit := do
  endHandling
  match id with
  | some id =>
    Scope.write env id .none
    Scope.remove env id
  | none => return ()

/-! ## Contexts of their own -/

/-- Enters the contexts of a `with` statement in turn, and goes on with its body. -/
def enter (ops : Ops) (env : Env) (line : Nat) (items : List (Expr × Option Expr))
    (body : List Stmt) (rest : List Task) : Run Move := do
  match items with
  | [] => proceed (.run body :: rest)
  | (e, target) :: more =>
    let manager ← ops.eval env e
    Run.atLine line
    let complain (extra : String) : Run Move := do
      Run.typeError (s!"'{← Run.kindName manager}' object does not support the context manager " ++
        s!"protocol{extra}")
    match ← Run.special? manager "__enter__", ← Run.special? manager "__exit__" with
    | none, _ => complain ""
    | some _, none => complain " (missed __exit__ method)"
    | some come, some leave =>
      let v ← ops.call come [manager] []
      let after : List Task := .leaving line manager leave :: rest
      match target with
      | none => proceed (.withItems line more body :: after)
      | some t =>
        tryCatch
          (do
            Assign.targets ops env [t] v
            proceed (.withItems line more body :: after))
          fun
            | .raised e => return .next (.raised e) after
            | .exhausted => throw .exhausted

/-- Leaves a context, telling it of an exception if there is one. The context may hold it back. -/
def leave (ops : Ops) (line : Nat) (manager leave : Value) (signal : Signal) (rest : List Task) :
    Run Move := do
  match signal with
  | .raised e =>
    let m ← get
    beginHandling e
    let restore : Run Unit := modify ({ · with handling := m.handling })
    Run.atLine line
    let r ← tryCatch (ops.call leave [manager, ← Run.exceptionClass e, .ref e, .none] [])
      fun stop => do
        restore
        throw stop
    restore
    if ← ops.truthy r then proceed rest else return .next signal rest
  | _ =>
    Run.atLine line
    let _ ← ops.call leave [manager, .none, .none, .none] []
    return .next signal rest

/-! ## Values given and sent -/

/-- Uses the value that was sent to a generator. -/
def receive (ops : Ops) (env : Env) (receiver : Receiver) (v : Value) (rest : List Task) :
    Run Move := do
  match receiver with
  | .drop => proceed rest
  | .assign _ targets =>
    Assign.targets ops env targets v
    proceed rest
  | .augment line t op left =>
    Run.atLine line
    let r ← Operator.augmented ops op left v
    Assign.targets ops env [t] r
    proceed rest
  | .ret => return .next (.ret v) rest

/-- Evaluates an expression whose value goes to a receiver. An expression that gives a value waits for
the value that is sent back. -/
def evaluate (ops : Ops) (env : Env) (e : Expr) (receiver : Receiver) (rest : List Task) :
    Run Move := do
  match e with
  | .yieldValue l v =>
    let given ← match v with
      | some e => ops.eval env e
      | none => pure .none
    Run.atLine l
    return .yield given (.awaitSent l receiver :: rest)
  | .yieldFrom l source =>
    let v ← ops.eval env source
    Run.atLine l
    let iterator ← Iterate.start ops v
    proceed (.delegate l iterator receiver :: rest)
  | _ => receive ops env receiver (← ops.eval env e) rest

/-- Whether an expression gives a value to the caller. -/
def givesValue : Expr → Bool
  | .yieldValue _ _ | .yieldFrom _ _ => true
  | _ => false

/-! ## Definitions -/

/-- Applies decorators to a function or class, the last first. -/
def decorated (ops : Ops) (decorators : List (Nat × Value)) (v : Value) : Run Value :=
  decorators.reverse.foldlM (fun v (line, d) => do
    Run.atLine line
    ops.call d [v] []) v

/-- The values of decorators with their lines. -/
def decoratorValues (ops : Ops) (env : Env) (es : List Expr) : Run (List (Nat × Value)) :=
  es.mapM fun e => do return (e.line, ← ops.eval env e)

/-- Defines a function. Its definition starts with its decorators. -/
def defineFunction (ops : Ops) (env : Env) (line : Nat) (decorators : List Expr) (id : String)
    (params : List Param) (result : Option Expr) (body : List Stmt) : Run Unit := do
  let ds ← decoratorValues ops env decorators
  let f ← Eval.function ops env ((decorators.head?.map Expr.line).getD line) id params body
  (params.filterMap Param.hint ++ result.toList).forM fun e => do
    let _ ← ops.eval env e
  Scope.write env id (← decorated ops ds f)

/-- Defines a class. -/
def defineClass (ops : Ops) (env : Env) (line : Nat) (decorators : List Expr) (id : String)
    (args : List Argument) (body : List Stmt) : Run Unit := do
  let ds ← decoratorValues ops env decorators
  let (bases, _) ← Eval.arguments ops env line (.str id) args
  Run.atLine line
  let cls ← Class.define ops env id bases body
  Scope.write env id (← decorated ops ds cls)

/-- Binds the names of an import. No module can be found but the one for features of the language. -/
def importNames (env : Env) (line : Nat) (path : Option String) (names : Option (List Alias)) :
    Run Unit := do
  Run.atLine line
  match path, names with
  | some "__future__", some as =>
    as.forM fun a =>
      Scope.write env (a.name.getD a.path) (.foreign "_Feature" a.path a.path)
  | some p, _ => Run.failWith .moduleNotFoundError s!"No module named '{p}'"
  | none, _ =>
    Run.failWith .importError "attempted relative import with no known parent package"

/-- Evaluates what a declaration without a value consists of. -/
def declared (ops : Ops) (env : Env) (target : Expr) : Run Unit := do
  match target with
  | .member _ o _ _ =>
    let _ ← ops.eval env o
  | .subscript _ o i =>
    let _ ← ops.eval env o
    let _ ← ops.eval env i
  | _ => return ()

/-- Evaluates the hint of a declaration; within functions the hints of names are left alone. -/
def declaredHint (ops : Ops) (env : Env) (target hint : Expr) (bare : Bool) : Run Unit := do
  let inFunction := env.namespaceAt.isNone && !env.visible.isEmpty
  let isName := match target with
    | .name _ _ => true
    | _ => false
  if !(inFunction || (isName && !bare)) then
    let _ ← ops.eval env hint

/-! ## Statements -/

/-- Runs the first case that matches a value and whose guard holds. -/
def selectCase (ops : Ops) (env : Env) (v : Value) (rest : List Task) : List Case → Run Move
  | [] => proceed rest
  | .mk p guard body :: more => do
    match ← Match.pattern ops env Scope.depth p v with
    | none => selectCase ops env v rest more
    | some captures =>
      captures.forM fun (id, w) => Scope.write env id w
      let holds ← match guard with
        | some g => do ops.truthy (← ops.eval env g)
        | none => pure true
      if holds then proceed (.run body :: rest) else selectCase ops env v rest more

/-- Runs one statement; `rest` is what is left to do after it. -/
def execute (ops : Ops) (env : Env) (s : Stmt) (rest : List Task) : Run Move := do
  match s with
  | .expr _ e => evaluate ops env e .drop rest
  | .assign l targets e => evaluate ops env e (.assign l targets) rest
  | .augment l t op e =>
    match givesValue e, t with
    | true, .name tl id =>
      Run.atLine tl
      let left ← Scope.read env id
      evaluate ops env e (.augment l t op left) rest
    | _, _ =>
      Assign.augment ops env l t op (ops.eval env e)
      proceed rest
  | .declare _ target hint value bare =>
    match value with
    | some e =>
      let v ← ops.eval env e
      Assign.targets ops env [target] v
    | none => declared ops env target
    declaredHint ops env target hint bare
    proceed rest
  | .delete _ ts =>
    ts.forM (Assign.delete ops env Scope.depth)
    proceed rest
  | .pass _ | .global _ _ | .nonlocal _ _ => proceed rest
  | .breakLoop _ => return .next .breakLoop rest
  | .continueLoop _ => return .next .continueLoop rest
  | .ret _ none => return .next (.ret .none) rest
  | .ret _ (some e) => evaluate ops env e .ret rest
  | .raise l v c => raise ops env l v c
  | .assert l t m =>
    let v ← ops.eval env t
    Run.atLine t.line
    if ← ops.truthy v then proceed rest
    else
      let args ← match m with
        | some e => do pure [← ops.eval env e]
        | none => pure []
      Run.atLine l
      Run.fail ⟨.assertionError, args⟩
  | .importModule l names =>
    names.forM fun a => importNames env l (some a.path) none
    proceed rest
  | .importFrom l level path names =>
    importNames env l (if level = 0 then path else none) names
    proceed rest
  | .ifElse _ t body orelse =>
    let v ← ops.eval env t
    Run.atLine t.line
    proceed (.run (if ← ops.truthy v then body else orelse) :: rest)
  | .whileLoop l t body orelse => proceed (.whileLoop l t body orelse :: rest)
  | .forLoop l _ t source body orelse =>
    let v ← ops.eval env source
    Run.atLine l
    let iterator ← Iterate.start ops v
    proceed (.forLoop l iterator t body orelse :: rest)
  | .withBlock l _ items body => proceed (.withItems l items body :: rest)
  | .tryBlock _ _ body handlers orelse final =>
    let rest := if final.isEmpty then rest else .finally final :: rest
    proceed (.run body :: .tryBody handlers orelse :: rest)
  | .function l _ ds id ps r body =>
    defineFunction ops env l ds id ps r body
    proceed rest
  | .classDef l ds id args body =>
    defineClass ops env l ds id args body
    proceed rest
  | .matchCases _ e cases => selectCase ops env (← ops.eval env e) rest cases

/-! ## Steps -/

/-- Takes a task up when control comes to it from above in the usual way; `sent` is the value that was
sent to a generator. -/
def perform (ops : Ops) (env : Env) (sent : Value) (t : Task) (rest : List Task) : Run Move := do
  match t with
  | .run [] => proceed rest
  | .run (s :: more) =>
    Run.atLine s.line
    execute ops env s (if more.isEmpty then rest else .run more :: rest)
  | .whileLoop _ test body orelse =>
    let v ← ops.eval env test
    Run.atLine test.line
    if ← ops.truthy v then proceed (.run body :: t :: rest) else proceed (.run orelse :: rest)
  | .forLoop l iterator target body orelse =>
    Run.atLine l
    match ← ops.advance iterator .none with
    | .item v =>
      Assign.targets ops env [target] v
      proceed (.run body :: t :: rest)
    | .done _ => proceed (.run orelse :: rest)
  | .tryBody _ orelse => proceed (.run orelse :: rest)
  | .handling id =>
    leaveHandler env id
    proceed rest
  | .finally body => proceed (.run body :: rest)
  | .goOn signal =>
    match signal with
    | .raised _ => endHandling
    | _ => pure ()
    return .next signal rest
  | .leaving l manager exit => leave ops l manager exit .proceed rest
  | .withItems l items body => enter ops env l items body rest
  | .awaitSent _ receiver => receive ops env receiver sent rest
  | .delegate l iterator receiver =>
    Run.atLine l
    match ← ops.advance iterator sent with
    | .item v => return .yield v (t :: rest)
    | .done v => receive ops env receiver v rest

/-- Hands a signal that leaves the tasks above to a task. -/
def unwind (ops : Ops) (env : Env) (signal : Signal) (t : Task) (rest : List Task) : Run Move := do
  match t, signal with
  | .whileLoop _ _ _ _, .breakLoop | .forLoop _ _ _ _ _, .breakLoop => proceed rest
  | .whileLoop _ _ _ _, .continueLoop | .forLoop _ _ _ _ _, .continueLoop => proceed (t :: rest)
  | .tryBody handlers _, .raised e =>
    beginHandling e
    let found ← tryCatch (handlerFor? ops env e handlers) fun stop => do
      endHandling
      throw stop
    match found with
    | some (id, body) =>
      match id with
      | some id => Scope.write env id (.ref e)
      | none => pure ()
      proceed (.run body :: .handling id :: rest)
    | none =>
      endHandling
      return .next signal rest
  | .handling id, _ =>
    leaveHandler env id
    return .next signal rest
  | .finally body, _ =>
    match signal with
    | .raised e => beginHandling e
    | _ => pure ()
    proceed (.run body :: .goOn signal :: rest)
  | .goOn held, _ =>
    match held with
    | .raised _ => endHandling
    | _ => pure ()
    return .next signal rest
  | .leaving l manager exit, _ => leave ops l manager exit signal rest
  | .awaitSent l _, .raised e =>
    Run.atLine l
    Run.raise e
  | .delegate l iterator receiver, .raised e =>
    Run.atLine l
    match ← Iterate.raiseFrom ops iterator e with
    | .item v => return .yield v (t :: rest)
    | .done v => receive ops env receiver v rest
  | _, _ => return .next signal rest

/-- Takes one step. An exception raised in it goes on as a signal. -/
def step (ops : Ops) (env : Env) (signal : Signal) (t : Task) (rest : List Task) : Run Move :=
  tryCatch
    (match signal with
    | .proceed => perform ops env .none t rest
    | .sent v => perform ops env v t rest
    | _ => unwind ops env signal t rest)
    fun
      | .raised e => return .next (.raised e) rest
      | .exhausted => throw .exhausted

/-- Runs tasks until none is left or a value is given. -/
def run (ops : Ops) (env : Env) : Nat → Signal → List Task → Run Outcome
  | 0, _, _ => throw .exhausted
  | _, signal, [] =>
    match signal with
    | .ret v => return .finished v
    | .raised e => throw (.raised e)
    | _ => return .finished .none
  | n + 1, signal, t :: rest => do
    match ← step ops env signal t rest with
    | .next s ts => run ops env n s ts
    | .yield v ts => return .yielded v ts

end Stencil.Script.Statement
