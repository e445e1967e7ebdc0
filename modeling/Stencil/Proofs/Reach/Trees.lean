import Stencil.Script.Interpreter

/-!
# Trees within limits

What a run can reach is limited by what its trees mention: the lines of their nodes, the names that they
read, bind and remove, and the objects that stand in for what is not written out. The limits are given by
properties of each of these, and a tree is within them when each of its nodes is.
-/

namespace Stencil.Script

/-- Limits of what a run may reach. -/
structure Limits where
  /-- The lines of nodes. -/
  line : Nat → Prop
  /-- The names that are read, bound or removed. -/
  name : String → Prop
  /-- The names of the variables of functions and of comprehensions. -/
  binds : String → Prop
  /-- The calls, by callee and arguments, that are taken as a whole, and the arguments within them. -/
  wraps : Expr → List Argument → List Argument → Prop
  /-- The addresses of objects. -/
  address : Address → Prop
  /-- Whether the namespace of a run may be taken as a dictionary. -/
  whole : Prop

/-- The names of the variables of a function. -/
def Scope.variablesOf (ps : List Param) (body : List Stmt) : List String :=
  localsOf ps (usesOfBody ps body)

mutual

/-- An expression is within limits. -/
inductive Expr.Within (L : Limits) : Expr → Prop
  | constant {l : Nat} {c : Constant} : L.line l → Expr.Within L (.constant l c)
  | name {l : Nat} {id : String} : L.line l → L.name id → Expr.Within L (.name l id)
  | display {l : Nat} {k : DisplayKind} {es : List Expr} :
      L.line l → (∀ e ∈ es, Expr.Within L e) → Expr.Within L (.display l k es)
  | dict {l : Nat} {items : List (Option Expr × Expr)} :
      L.line l → (∀ i ∈ items, ∀ k ∈ i.1, Expr.Within L k) → (∀ i ∈ items, Expr.Within L i.2) →
      Expr.Within L (.dict l items)
  | unary {l : Nat} {op : UnaryOp} {e : Expr} :
      L.line l → Expr.Within L e → Expr.Within L (.unary l op e)
  | binary {l : Nat} {op : BinaryOp} {a b : Expr} :
      L.line l → Expr.Within L a → Expr.Within L b → Expr.Within L (.binary l op a b)
  | logic {l : Nat} {conjunction : Bool} {es : List Expr} :
      L.line l → (∀ e ∈ es, Expr.Within L e) → Expr.Within L (.logic l conjunction es)
  | compare {l : Nat} {first : Expr} {rest : List (CompareOp × Expr)} :
      L.line l → Expr.Within L first → (∀ r ∈ rest, Expr.Within L r.2) →
      Expr.Within L (.compare l first rest)
  | choice {l : Nat} {t b o : Expr} :
      L.line l → Expr.Within L t → Expr.Within L b → Expr.Within L o → Expr.Within L (.choice l t b o)
  | call {l : Nat} {f : Expr} {args : List Argument} :
      L.line l → Expr.Within L f → (∀ a ∈ args, Argument.Within L a) → Expr.Within L (.call l f args)
  | member {l : Nat} {o : Expr} {id : String} {idLine : Nat} :
      L.line l → Expr.Within L o → L.line idLine → Expr.Within L (.member l o id idLine)
  | subscript {l : Nat} {o i : Expr} :
      L.line l → Expr.Within L o → Expr.Within L i → Expr.Within L (.subscript l o i)
  | slice {l : Nat} {low high step : Option Expr} :
      L.line l → (∀ e ∈ low, Expr.Within L e) → (∀ e ∈ high, Expr.Within L e) →
      (∀ e ∈ step, Expr.Within L e) → Expr.Within L (.slice l low high step)
  | star {l : Nat} {e : Expr} : L.line l → Expr.Within L e → Expr.Within L (.star l e)
  | lambda {l : Nat} {ps : List Param} {body : Expr} :
      L.line l → (∀ p ∈ ps, Param.Within L p) → Expr.Within L body →
      (∀ id ∈ Scope.variablesOf ps [.ret body.line (some body)], L.binds id) →
      Expr.Within L (.lambda l ps body)
  | bind {l : Nat} {id : String} {idLine : Nat} {v : Expr} :
      L.line l → L.name id → L.line idLine → Expr.Within L v → Expr.Within L (.bind l id idLine v)
  | comprehension {l : Nat} {k : ComprehensionKind} {element : Expr} {cs : List Clause} :
      L.line l → Expr.Within L element → (∀ c ∈ cs, Clause.Within L c) →
      (∀ id ∈ Scope.targetNames cs, L.binds id) → Expr.Within L (.comprehension l k element cs)
  | dictComprehension {l : Nat} {k v : Expr} {cs : List Clause} :
      L.line l → Expr.Within L k → Expr.Within L v → (∀ c ∈ cs, Clause.Within L c) →
      (∀ id ∈ Scope.targetNames cs, L.binds id) → Expr.Within L (.dictComprehension l k v cs)
  | template {l : Nat} {parts : List Part} :
      L.line l → (∀ p ∈ parts, Part.Within L p) → Expr.Within L (.template l parts)
  | yieldValue {l : Nat} {v : Option Expr} :
      L.line l → (∀ e ∈ v, Expr.Within L e) → Expr.Within L (.yieldValue l v)
  | yieldFrom {l : Nat} {v : Expr} : L.line l → Expr.Within L v → Expr.Within L (.yieldFrom l v)
  | await {l : Nat} {v : Expr} : L.line l → Expr.Within L v → Expr.Within L (.await l v)
  | wrapped {l : Nat} {f : Expr} {args inner : List Argument} :
      L.line l → L.wraps f args inner → (∀ a ∈ inner, Argument.Within L a) →
      Expr.Within L (.call l f args)

/-- An argument is within limits. -/
inductive Argument.Within (L : Limits) : Argument → Prop
  | positional {e : Expr} : Expr.Within L e → Argument.Within L (.positional e)
  | star {e : Expr} : Expr.Within L e → Argument.Within L (.star e)
  | named {l : Nat} {id : String} {e : Expr} :
      L.line l → Expr.Within L e → Argument.Within L (.named l id e)
  | doubleStar {e : Expr} : Expr.Within L e → Argument.Within L (.doubleStar e)

/-- A part of a string is within limits. -/
inductive Part.Within (L : Limits) : Part → Prop
  | text {s : String} : Part.Within L (.text s)
  | field {e : Expr} {conversion : Option Char} {format : List Part} :
      Expr.Within L e → (∀ p ∈ format, Part.Within L p) → Part.Within L (.field e conversion format)

/-- A clause is within limits. -/
inductive Clause.Within (L : Limits) : Clause → Prop
  | mk {l : Nat} {awaited : Bool} {target source : Expr} {conditions : List Expr} :
      L.line l → Expr.Within L target → Expr.Within L source → (∀ e ∈ conditions, Expr.Within L e) →
      Clause.Within L (.mk l awaited target source conditions)

/-- A parameter is within limits. -/
inductive Param.Within (L : Limits) : Param → Prop
  | mk {l : Nat} {k : ParamKind} {id : String} {hint default : Option Expr} :
      L.line l → (∀ e ∈ hint, Expr.Within L e) → (∀ e ∈ default, Expr.Within L e) →
      Param.Within L (.mk l k id hint default)

end

/-- A pattern is within limits. -/
inductive Pattern.Within (L : Limits) : Pattern → Prop
  | value {l : Nat} {e : Expr} : L.line l → e.Within L → Pattern.Within L (.value l e)
  | singleton {l : Nat} {c : Constant} : L.line l → Pattern.Within L (.singleton l c)
  | capture {l : Nat} {id : String} : L.line l → L.name id → Pattern.Within L (.capture l id)
  | wildcard {l : Nat} : L.line l → Pattern.Within L (.wildcard l)
  | sequence {l : Nat} {items : List Pattern} :
      L.line l → (∀ p ∈ items, Pattern.Within L p) → Pattern.Within L (.sequence l items)
  | star {l : Nat} {id : Option String} :
      L.line l → (∀ n ∈ id, L.name n) → Pattern.Within L (.star l id)
  | mapping {l : Nat} {items : List (Expr × Pattern)} {rest : Option String} :
      L.line l → (∀ i ∈ items, i.1.Within L) → (∀ i ∈ items, Pattern.Within L i.2) →
      (∀ n ∈ rest, L.name n) → Pattern.Within L (.mapping l items rest)
  | ofClass {l : Nat} {callee : Expr} {items : List Pattern} {named : List (String × Pattern)} :
      L.line l → callee.Within L → (∀ p ∈ items, Pattern.Within L p) →
      (∀ i ∈ named, Pattern.Within L i.2) → Pattern.Within L (.ofClass l callee items named)
  | either {l : Nat} {items : List Pattern} :
      L.line l → (∀ p ∈ items, Pattern.Within L p) → Pattern.Within L (.either l items)
  | named {l : Nat} {item : Pattern} {id : String} :
      L.line l → Pattern.Within L item → L.name id → Pattern.Within L (.named l item id)

mutual

/-- A statement is within limits. -/
inductive Stmt.Within (L : Limits) : Stmt → Prop
  | expr {l : Nat} {e : Expr} : L.line l → e.Within L → Stmt.Within L (.expr l e)
  | assign {l : Nat} {ts : List Expr} {v : Expr} :
      L.line l → (∀ t ∈ ts, t.Within L) → v.Within L → Stmt.Within L (.assign l ts v)
  | augment {l : Nat} {t : Expr} {op : BinaryOp} {v : Expr} :
      L.line l → t.Within L → v.Within L → Stmt.Within L (.augment l t op v)
  | declare {l : Nat} {t hint : Expr} {v : Option Expr} {bare : Bool} :
      L.line l → t.Within L → hint.Within L → (∀ e ∈ v, e.Within L) →
      Stmt.Within L (.declare l t hint v bare)
  | delete {l : Nat} {ts : List Expr} :
      L.line l → (∀ t ∈ ts, t.Within L) → Stmt.Within L (.delete l ts)
  | pass {l : Nat} : L.line l → Stmt.Within L (.pass l)
  | breakLoop {l : Nat} : L.line l → Stmt.Within L (.breakLoop l)
  | continueLoop {l : Nat} : L.line l → Stmt.Within L (.continueLoop l)
  | ret {l : Nat} {v : Option Expr} : L.line l → (∀ e ∈ v, e.Within L) → Stmt.Within L (.ret l v)
  | raise {l : Nat} {v cause : Option Expr} :
      L.line l → (∀ e ∈ v, e.Within L) → (∀ e ∈ cause, e.Within L) → Stmt.Within L (.raise l v cause)
  | assert {l : Nat} {t : Expr} {message : Option Expr} :
      L.line l → t.Within L → (∀ e ∈ message, e.Within L) → Stmt.Within L (.assert l t message)
  | importModule {l : Nat} {names : List Alias} : L.line l → Stmt.Within L (.importModule l names)
  | importFrom {l level : Nat} {path : Option String} {names : Option (List Alias)} :
      L.line l → (∀ as ∈ names, ∀ a ∈ as, L.name (a.name.getD a.path)) →
      Stmt.Within L (.importFrom l level path names)
  | global {l : Nat} {ids : List String} : L.line l → Stmt.Within L (.global l ids)
  | nonlocal {l : Nat} {ids : List String} : L.line l → Stmt.Within L (.nonlocal l ids)
  | ifElse {l : Nat} {t : Expr} {body orelse : List Stmt} :
      L.line l → t.Within L → (∀ s ∈ body, Stmt.Within L s) → (∀ s ∈ orelse, Stmt.Within L s) →
      Stmt.Within L (.ifElse l t body orelse)
  | whileLoop {l : Nat} {t : Expr} {body orelse : List Stmt} :
      L.line l → t.Within L → (∀ s ∈ body, Stmt.Within L s) → (∀ s ∈ orelse, Stmt.Within L s) →
      Stmt.Within L (.whileLoop l t body orelse)
  | forLoop {l : Nat} {awaited : Bool} {t source : Expr} {body orelse : List Stmt} :
      L.line l → t.Within L → source.Within L → (∀ s ∈ body, Stmt.Within L s) →
      (∀ s ∈ orelse, Stmt.Within L s) → Stmt.Within L (.forLoop l awaited t source body orelse)
  | withBlock {l : Nat} {awaited : Bool} {items : List (Expr × Option Expr)} {body : List Stmt} :
      L.line l → (∀ i ∈ items, i.1.Within L) → (∀ i ∈ items, ∀ t ∈ i.2, t.Within L) →
      (∀ s ∈ body, Stmt.Within L s) → Stmt.Within L (.withBlock l awaited items body)
  | tryBlock {l : Nat} {grouped : Bool} {body : List Stmt} {handlers : List Handler}
      {orelse final : List Stmt} :
      L.line l → (∀ s ∈ body, Stmt.Within L s) → (∀ h ∈ handlers, Handler.Within L h) →
      (∀ s ∈ orelse, Stmt.Within L s) → (∀ s ∈ final, Stmt.Within L s) →
      Stmt.Within L (.tryBlock l grouped body handlers orelse final)
  | function {l : Nat} {awaited : Bool} {decorators : List Expr} {id : String} {ps : List Param}
      {result : Option Expr} {body : List Stmt} :
      L.line l → (∀ d ∈ decorators, d.Within L) → L.name id → (∀ p ∈ ps, p.Within L) →
      (∀ e ∈ result, e.Within L) → (∀ s ∈ body, Stmt.Within L s) →
      (∀ id ∈ Scope.variablesOf ps body, L.binds id) →
      Stmt.Within L (.function l awaited decorators id ps result body)
  | classDef {l : Nat} {decorators : List Expr} {id : String} {args : List Argument}
      {body : List Stmt} :
      L.line l → (∀ d ∈ decorators, d.Within L) → L.name id → (∀ a ∈ args, a.Within L) →
      (∀ s ∈ body, Stmt.Within L s) → Stmt.Within L (.classDef l decorators id args body)
  | matchCases {l : Nat} {subject : Expr} {cases : List Case} :
      L.line l → subject.Within L → (∀ c ∈ cases, Case.Within L c) →
      Stmt.Within L (.matchCases l subject cases)

/-- A handler is within limits. -/
inductive Handler.Within (L : Limits) : Handler → Prop
  | mk {l : Nat} {kind : Option Expr} {id : Option String} {body : List Stmt} :
      L.line l → (∀ e ∈ kind, e.Within L) → (∀ n ∈ id, L.name n) → (∀ s ∈ body, Stmt.Within L s) →
      Handler.Within L (.mk l kind id body)

/-- A case is within limits. -/
inductive Case.Within (L : Limits) : Case → Prop
  | mk {p : Pattern} {guard : Option Expr} {body : List Stmt} :
      p.Within L → (∀ e ∈ guard, e.Within L) → (∀ s ∈ body, Stmt.Within L s) →
      Case.Within L (.mk p guard body)

end

variable {L : Limits}

/-- The line on which an expression starts is one of its lines. -/
@[grind →] theorem Expr.Within.line {e : Expr} (h : e.Within L) : L.line e.line := by
  cases h <;> assumption

/-- The line on which a statement starts is one of its lines. -/
@[grind →] theorem Stmt.Within.line {s : Stmt} (h : s.Within L) : L.line s.line := by
  cases h <;> assumption

/-- The line and the identifier of a name are among those of the limits. -/
@[grind →] theorem Expr.Within.of_name {l : Nat} {id : String} (h : (Expr.name l id).Within L) :
    L.line l ∧ L.name id := by
  cases h
  exact ⟨‹_›, ‹_›⟩

end Stencil.Script
