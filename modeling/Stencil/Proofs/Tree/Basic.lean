import Stencil.Instruction.Basic
import Stencil.Proofs.Data.Json
import Stencil.Proofs.Script.Lexing
import Stencil.Render

/-!
# Block trees and what they mean

A block tree is a template as its author thinks of it: texts, remarks, names whose values are put out,
loops over the value of a name, and choices by the truth of names. Written down it is a flat sequence of
segments, in which a directive opens each block and another one closes it.

A block tree is worked through from the front over the values that its names have. Texts and values are
put out, a loop binds its name to each item in turn and leaves it bound, and of the branches of a choice
the first is taken whose name has a true value. A name without a value, a loop over something that has
no items and an integer with too many digits are at fault.
-/

namespace Stencil.Tree

open Script (isAsciiName isName keywords)

/-- The names that the engine adds to the namespace of every template. -/
def engineNames : List String := ["__builtins__", Render.bufferName, "_escape", "_str", "_context"]

/-- Whether a name is a template's own: an ASCII identifier that is no keyword, no built-in name and no
name of the engine. -/
def isOwnName (id : String) : Bool :=
  isAsciiName id.toList && !keywords.contains id && (Script.Scope.builtin? id).isNone &&
    !engineNames.contains id

/-- A name of a template's own. -/
structure Name where
  id : String
  isOwn : isOwnName id

/-- An identifier that is no keyword. It need not be made of ASCII characters. -/
structure Word where
  id : String
  isWord : isName id.toList && !keywords.contains id

/-- A name of a template is a word. -/
@[reducible] def Name.word (x : Name) : Word where
  id := x.id
  isWord := by
    have h := x.isOwn
    simp only [isOwnName, Bool.and_eq_true] at h
    rw [Bool.and_eq_true]
    exact ⟨Script.isName_of_isAsciiName h.1.1.1, h.1.1.2⟩

instance : Coe Name Word := ⟨Name.word⟩

/-- The line of a directive that opens a block, and whether it is written with a colon. -/
structure Head where
  line : Int
  colon : Bool

/-- The directive that closes a block: its word and its line. -/
structure Closing where
  word : Text
  line : Int
  isEnd : isEndWord word

mutual

/-- A part of a block tree, with the template lines of its directives. -/
inductive Node where
  | text (t : Text) (line : Int)
  | remark (code : Text) (line : Int)
  | output (escaped : Bool) (name : Name) (line : Int)
  | loop (head : Head) (target source : Name) (body : List Node) (closing : Closing)
  | choice (head : Head) (test : Name) (body : List Node) (rest : Branches)

/-- What follows the first branch of a choice. -/
inductive Branches where
  | finish (closing : Closing)
  | otherwise (head : Head) (body : List Node) (closing : Closing)
  | elseIf (head : Head) (test : Name) (body : List Node) (rest : Branches)

end

/-! ## Nesting -/

mutual

/-- How deep the blocks of a node nest. -/
def Node.depth : Node → Nat
  | .text _ _ | .remark _ _ | .output _ _ _ => 0
  | .loop _ _ _ body _ => depthAll body + 1
  | .choice _ _ body rest => max (depthAll body) rest.depth + 1

/-- How deep the blocks in the further branches of a choice nest. -/
def Branches.depth : Branches → Nat
  | .finish _ => 0
  | .otherwise _ body _ => depthAll body
  | .elseIf _ _ body rest => max (depthAll body) rest.depth

/-- How deep the blocks of a sequence of nodes nest. -/
def depthAll : List Node → Nat
  | [] => 0
  | n :: rest => max n.depth (depthAll rest)

end

/-! ## Segments -/

/-- A directive within a line of text. -/
def inline (kind : DirectiveKind) (code : Text) (line : Int) : Segment :=
  .directive ⟨kind, code, none, none, line⟩

/-- The characters of a name. -/
def Name.text (x : Name) : Text := x.id.toList

/-- The characters of a word. -/
def Word.text (x : Word) : Text := x.id.toList

/-- Words with a space between each two of them. -/
def sentence : List Text → Text
  | [] => []
  | [w] => w
  | w :: ws => w ++ ' ' :: sentence ws

/-- What opens a block: a loop, a branch with a condition, of which further branches start with a word of
their own, or the last branch. -/
inductive Header where
  | loop (target source : Name)
  | test (further : Bool) (name : Name)
  | otherwise

/-- The words of a header. -/
def Header.words : Header → List Text
  | loop target source => ["for".toList, target.text, "in".toList, source.text]
  | test further x => [(if further then "elif" else "if").toList, x.text]
  | otherwise => ["else".toList]

/-- The directive that opens a block. -/
def Head.segment (h : Head) (header : Header) : Segment :=
  let code := sentence header.words
  inline .statement (if h.colon then code ++ [':'] else code) h.line

/-- The directive that closes a block. -/
def Closing.segment (c : Closing) : Segment :=
  inline .statement c.word c.line

mutual

/-- A node as it is written down. -/
def Node.segments : Node → List Segment
  | .text t line => [.literal t line]
  | .remark code line => [inline .comment code line]
  | .output escaped x line => [inline (if escaped then .escapedExpr else .rawExpr) x.text line]
  | .loop head target source body closing =>
    head.segment (.loop target source) :: segmentsAll body ++ [closing.segment]
  | .choice head test body rest =>
    head.segment (.test false test) :: segmentsAll body ++ rest.segments

/-- The further branches of a choice as they are written down. -/
def Branches.segments : Branches → List Segment
  | .finish closing => [closing.segment]
  | .otherwise head body closing =>
    head.segment .otherwise :: segmentsAll body ++ [closing.segment]
  | .elseIf head test body rest =>
    head.segment (.test true test) :: segmentsAll body ++ rest.segments

/-- A sequence of nodes as it is written down. -/
def segmentsAll : List Node → List Segment
  | [] => []
  | n :: rest => n.segments ++ segmentsAll rest

end

end Stencil.Tree

namespace Stencil.Tree

/-! ## What block trees mean -/

open Script (ExceptionKind)

/-- Why a tree has no output: the template line, the kind of exception and its message. -/
structure Fault where
  line : Int
  kind : ExceptionKind
  message : String
  deriving Repr, DecidableEq

namespace Fault

/-- A name has no value. -/
def undefined (name : String) (line : Int) : Fault :=
  ⟨line, .nameError, s!"name '{name}' is not defined"⟩

/-- A loop runs over a value without items. -/
def notIterable (d : Data) (line : Int) : Fault :=
  ⟨line, .typeError, s!"'{d.kind}' object is not iterable"⟩

/-- An integer has too many digits. -/
def tooLong (line : Int) : Fault :=
  ⟨line, .valueError, "Exceeds the limit (4300 digits) for integer string conversion; use " ++
    "sys.set_int_max_str_digits() to increase the limit"⟩

end Fault

/-- How far a tree has been worked through: the values of names, and the output so far. -/
structure State where
  values : String → Option Data
  output : String

namespace State

/-- Gives a name a value. -/
def bind (s : State) (name : String) (d : Data) : State :=
  { s with values := fun n => if n = name then some d else s.values n }

/-- Puts a text out. -/
def write (s : State) (t : String) : State :=
  { s with output := s.output ++ t }

/-- The value of a name. -/
def read (s : State) (x : Name) (line : Int) : Except Fault Data :=
  match s.values x.id with
  | some d => .ok d
  | none => .error (.undefined x.id line)

/-- The state in which nothing has been put out and names have the values of bindings, of which later
ones count. -/
def start (bindings : List (String × Data)) : State :=
  bindings.foldl (fun s b => s.bind b.1 b.2) ⟨fun _ => none, ""⟩

end State

/-- The text that the value of a name is put out as. -/
def textOf (escapes : Bool) (d : Data) (line : Int) : Except Fault String :=
  if d.isShort then .ok (if escapes then Escape.htmlString d.plain else d.plain)
  else .error (.tooLong line)

/-- The items that a loop runs over. -/
def itemsOf (d : Data) (line : Int) : Except Fault (List Data) :=
  match d.items? with
  | some items => .ok items
  | none => .error (.notIterable d line)

mutual

/-- Works through a node. In a template for HTML the escaped values are escaped. -/
def Node.eval (html : Bool) : Node → State → Except Fault State
  | .text t _, s => .ok (s.write (String.ofList t))
  | .remark code _, s => .ok (s.write (String.ofList (List.replicate (Text.breaks code) '\n')))
  | .output escaped x line, s => do
    let d ← s.read x line
    let t ← textOf (escaped && html) d line
    return s.write t
  | .loop head target source body _, s => do
    let d ← s.read source head.line
    let items ← itemsOf d head.line
    items.foldlM (fun s d => evalAll html body (s.bind target.id d)) s
  | .choice head test body rest, s => do
    let d ← s.read test head.line
    if d.isTruthy then evalAll html body s else rest.eval html s

/-- Works through the further branches of a choice. -/
def Branches.eval (html : Bool) : Branches → State → Except Fault State
  | .finish _, s => .ok s
  | .otherwise _ body _, s => evalAll html body s
  | .elseIf head test body rest, s => do
    let d ← s.read test head.line
    if d.isTruthy then evalAll html body s else rest.eval html s

/-- Works through a sequence of nodes. -/
def evalAll (html : Bool) : List Node → State → Except Fault State
  | [], s => .ok s
  | n :: rest, s => do
    let s ← n.eval html s
    evalAll html rest s

end

/-- The output of a tree over bindings. -/
def evaluate (html : Bool) (nodes : List Node) (bindings : List (String × Data)) :
    Except Fault String := do
  let s ← evalAll html nodes (.start bindings)
  return s.output

end Stencil.Tree
