import Stencil.Context
import Stencil.Program.Compile

/-!
# Rendering templates

A compiled template runs in a fresh namespace that holds the bindings of a context, a list to which it
adds pieces of output, and the two ways in which a value becomes a piece. The output is the pieces put
together. When the template fails, the error names the template line that was being worked on.
-/

namespace Stencil

open Script

/-- Why a template gives no output. -/
inductive RenderError where
  /-- The code of the template failed: the template, the line, the kind of the exception and its text. -/
  | failed (template : String) (line : Option Int) (cause message : String)
  /-- An exception that is not one of the template's code, or that nothing may hold back. -/
  | raised (kind message : String)
  /-- The code of the template asked to end the whole program: the kind of the exception, its text, and
  the exit code. -/
  | exited (kind message : String) (code : Data)
  /-- The program was never checked. -/
  | notRunnable (template : String)
  /-- What was to be rendered with is neither a mapping nor a context. -/
  | notBindings (kind : String)
  /-- The steps were used up. -/
  | exhausted

/-- The words for an error. -/
def RenderError.message : RenderError → String
  | failed template line cause text => s!"{showPlace template line}: {cause}: {text}"
  | raised _ text | exited _ text _ => text
  | notRunnable template => s!"program for {template} has no compiled code"
  | notBindings kind => s!"render() expects a mapping or a context, not {kind}"
  | exhausted => "the steps are used up"

/-- The number of steps that a template may take. -/
def stepLimit : Nat := 1000000000000

/-- The operations with which templates run. -/
def templateOps : Ops := operations stepLimit

namespace Render

/-- Names that the namespace of every template holds, whatever its bindings. -/
def bufferName : String := "_buf"

/-- The namespace of a template: the bindings of its context, then the names of the engine. -/
def namespaceOf (ops : Ops) (context : Value) : Run Entries := do
  let es ← Context.bindings ops context
  let escape ← ops.member context "escape"
  let buffer ← Run.newList []
  let engine : Members := [
    ("__builtins__", .foreign "module" "<module 'builtins' (built-in)>"
      "<module 'builtins' (built-in)>"),
    (bufferName, buffer), ("_escape", escape), ("_str", .native .plainText), ("_context", context)]
  return engine.foldl (fun es (n, v) => es.insert (.str n) v) es

/-- The line on which an exception was raised first, if that is known. One that carries no line came by
the line that is being worked on; before the first statement there is none. -/
def originIn (m : Machine) (exception : Address) : Option Nat :=
  let noted : Option Nat := match m.heap[exception.index]? with
    | some (.instance i) => i.origin
    | _ => none
  (noted.filter (0 < ·)).or ((some m.line).filter (0 < ·))

/-- The line on which an exception was raised first, if that is known. -/
def originOf (exception : Address) : Run (Option Nat) := do
  return originIn (← get) exception

/-- The depth down to which an exit code is kept. -/
def codeDepth : Nat := 100

/-- The exit code that an exception carries: nothing, its only argument, or all of them. -/
def exitCode (ops : Ops) (exception : Address) : Run Data := do
  match ← Run.object? exception with
  | some (.instance i) =>
    match i.args with
    | [] => return .none
    | [v] => snapshot ops codeDepth v
    | vs => return .tuple (← vs.mapM (snapshot ops codeDepth))
  | _ => return .none

/-- The error for an exception that nothing in the library deals with. -/
def uncaught (ops : Ops) (exception : Address) : Run RenderError := do
  let kind ← Run.nameOf (← Run.exceptionClass exception)
  let text ← Run.catching (ops.str (.ref exception)) fun _ => return ""
  if ← Run.isException exception .systemExit then
    return .exited kind text (← exitCode ops exception)
  return .raised kind text

/-- The error for an exception that the code of a template raised, with the messages about it. `here`
says whether lines of the code are lines of the program. -/
def failure (ops : Ops) (p : Program) (here : Bool) (exception : Address) :
    Run (RenderError × LogEntry) := do
  let origin ← originOf exception
  let line := if here then origin.bind fun (n : Nat) => p.lineMap.find? n else none
  let shown ← ops.repr (.ref exception)
  let shownLine := match line with
    | some l => toString l
    | none => "None"
  let entry : LogEntry := ⟨2, s!"Render of {p.name} failed at line {shownLine}: {shown}"⟩
  let cause ← Run.nameOf (← Run.exceptionClass exception)
  let text ← ops.str (.ref exception)
  return (.failed p.name line cause text, entry)

/-- The pieces of output put together. -/
def output (ops : Ops) : Run String := do
  let space ← Run.entries (← get).globals
  match space.named? bufferName with
  | none => Run.fail ⟨.keyError, [.str bufferName]⟩
  | some buffer =>
    match ← Str.join ops [] buffer with
    | .str s => return s
    | _ => return ""

/-- Runs the statements of a program with a context. -/
def runBody (ops : Ops) (p : Program) (here : Bool) (body : List Stmt) (context : Value) :
    Run (Except RenderError String × LogEntry) := do
  let space ← Run.newDict (← namespaceOf ops context)
  match space with
  | .ref a => modify fun m => { m with globals := a, line := 0, depth := 0, handling := [] }
  | _ => pure ()
  let failed ← Run.catching
    (do
      let _ ← ops.resume Env.top .proceed [.run body]
      return none)
    fun e => do
      if ← Run.isException e .exception then return some e else throw (.raised e)
  match failed with
  | some e =>
    let (error, entry) ← failure ops p here e
    return (.error error, entry)
  | none =>
    let text ← output ops
    return (.ok text, ⟨3, s!"Rendered {p.name}: {text.length} characters"⟩)

end Render

/-- A computation that renders: it works on the objects of a machine and leaves messages. -/
abbrev Rendering := ExceptT RenderError (StateM (Machine × Array LogEntry))

namespace Rendering

/-- Runs a computation of the machine; an exception that leaves it becomes an error. -/
def ofRunBy {α : Type} (ops : Ops) (r : Run α) : Rendering α := do
  let (m, log) ← get
  match r.run m with
  | .ok a m' =>
    set (m', log)
    return a
  | .error .exhausted m' =>
    set (m', log)
    throw .exhausted
  | .error (.raised e) m' =>
    match (Render.uncaught ops e).run m' with
    | .ok error m'' =>
      set (m'', log)
      throw error
    | .error _ m'' =>
      set (m'', log)
      throw .exhausted

/-- Runs a computation of the machine with the operations of templates. -/
def ofRun {α : Type} (r : Run α) : Rendering α :=
  ofRunBy templateOps r

/-- Leaves a message. -/
def say (entry : LogEntry) : Rendering Unit :=
  modify fun (m, log) => (m, log.push entry)

end Rendering

/-- Runs a program with a context. `here` says whether lines of its code are lines of the program. -/
def Program.runBy (ops : Ops) (p : Program) (here : Bool) (context : Value) : Rendering String := do
  match p.body with
  | none => throw (.notRunnable p.name)
  | some body =>
    let (result, entry) ← Rendering.ofRunBy ops (Render.runBody ops p here body context)
    Rendering.say entry
    match result with
    | .ok text => return text
    | .error e => throw e

/-- Runs a program with the operations of templates. -/
def Program.run (p : Program) (here : Bool) (context : Value) : Rendering String :=
  p.runBy templateOps here context

/-- A template: its program, whether it is for HTML, and the escaper of the contexts it makes. -/
structure Template where
  program : Program
  html : Bool
  escaper : Option Escaper

namespace Template

/-- How a template is shown. -/
def shown (t : Template) : String :=
  let kind := if t.html then "HtmlTemplate" else "Template"
  s!"<{kind} {Text.quotedString t.program.name}>"

/-- A new context for the template. -/
def newContext (ops : Ops) (t : Template) (bindings : Entries) : Run Value :=
  Context.new ops (if t.html then .html else .text) bindings
    (t.escaper.map fun e => .native (.escaper e))

/-- Renders with a context that is ready, with a mapping of bindings, or with nothing. -/
def renderBy (ops : Ops) (t : Template) (v : Value) : Rendering String := do
  let refuse : Rendering Value := do
    throw (.notBindings (← Rendering.ofRunBy ops (Run.kindName v)))
  let context ← match v with
    | .none => Rendering.ofRunBy ops (t.newContext ops [])
    | .ref a => do
      if ← Rendering.ofRunBy ops (Context.isContext v) then pure v
      else
        match ← Rendering.ofRunBy ops (Run.object? a) with
        | some (.dict es) => Rendering.ofRunBy ops (t.newContext ops es)
        | _ => refuse
    | _ => refuse
  t.program.runBy ops true context

/-- Renders with the operations of templates. -/
def render (t : Template) (v : Value) : Rendering String :=
  t.renderBy templateOps v

end Template

end Stencil
