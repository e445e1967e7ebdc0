import Stencil.Text.Basic

/-!
# The grammar trees of scripts

Expressions, statements and patterns as trees. Every node keeps the line on which it starts, which is
the line that errors name, both when a script is checked and when it runs. The direct parts of an
expression are given in the order in which they are written, so that checks over whole trees need to name
only the nodes that matter to them.
-/

namespace Stencil.Script

/-- Values written out in a script. -/
inductive Constant where
  | none
  | bool (b : Bool)
  | ellipsis
  | int (n : Nat)
  | float (x : Float)
  | imaginary (x : Float)
  | str (s : String)
  | bytes (b : List Nat)
  deriving Repr, Inhabited

/-- Operators with one operand. -/
inductive UnaryOp where
  | not | negate | plus | invert
  deriving Repr, DecidableEq, Inhabited

/-- Operators with two operands, also used by augmented assignment. -/
inductive BinaryOp where
  | add | sub | mul | matMul | div | floorDiv | mod | pow
  | shiftLeft | shiftRight | bitAnd | bitOr | bitXor
  deriving Repr, DecidableEq, Inhabited

/-- Comparisons. -/
inductive CompareOp where
  | eq | ne | lt | le | gt | ge | is | isNot | isIn | notIn
  deriving Repr, DecidableEq, Inhabited

/-- The collections that are written by listing their items. -/
inductive DisplayKind where
  | tuple | list | set
  deriving Repr, DecidableEq, Inhabited

/-- What a comprehension makes of its items. -/
inductive ComprehensionKind where
  | list | set | generator
  deriving Repr, DecidableEq, Inhabited

/-- How a parameter takes its argument: by position only, by position or name, all further positions, by
name only, or all further names. -/
inductive ParamKind where
  | positionOnly | plain | positions | nameOnly | names
  deriving Repr, DecidableEq, Inhabited

mutual

/-- Expressions. -/
inductive Expr where
  | constant (line : Nat) (value : Constant)
  | name (line : Nat) (id : String)
  | display (line : Nat) (kind : DisplayKind) (items : List Expr)
  /-- A mapping; an item without a key is another mapping that is unpacked. -/
  | dict (line : Nat) (items : List (Option Expr × Expr))
  | unary (line : Nat) (op : UnaryOp) (operand : Expr)
  | binary (line : Nat) (op : BinaryOp) (left right : Expr)
  /-- A chain of `and` or of `or`. -/
  | logic (line : Nat) (conjunction : Bool) (operands : List Expr)
  | compare (line : Nat) (first : Expr) (rest : List (CompareOp × Expr))
  | choice (line : Nat) (test body orelse : Expr)
  | call (line : Nat) (callee : Expr) (args : List Argument)
  | member (line : Nat) (object : Expr) (id : String) (idLine : Nat)
  | subscript (line : Nat) (object index : Expr)
  | slice (line : Nat) (low high step : Option Expr)
  | star (line : Nat) (operand : Expr)
  | lambda (line : Nat) (params : List Param) (body : Expr)
  /-- An assignment to a name within an expression. -/
  | bind (line : Nat) (id : String) (idLine : Nat) (value : Expr)
  | comprehension (line : Nat) (kind : ComprehensionKind) (element : Expr) (clauses : List Clause)
  | dictComprehension (line : Nat) (key value : Expr) (clauses : List Clause)
  /-- A string with fields whose values are filled in. -/
  | template (line : Nat) (parts : List Part)
  | yieldValue (line : Nat) (value : Option Expr)
  | yieldFrom (line : Nat) (value : Expr)
  | await (line : Nat) (value : Expr)

/-- An argument of a call. -/
inductive Argument where
  | positional (value : Expr)
  | star (value : Expr)
  | named (line : Nat) (id : String) (value : Expr)
  | doubleStar (value : Expr)

/-- A part of a string with fields. A field has a value, a letter that selects its text, and a format
which may hold fields itself. -/
inductive Part where
  | text (s : String)
  | field (value : Expr) (conversion : Option Char) (format : List Part)

/-- A clause of a comprehension. -/
inductive Clause where
  | mk (line : Nat) (awaited : Bool) (target source : Expr) (conditions : List Expr)

/-- A parameter of a function. -/
inductive Param where
  | mk (line : Nat) (kind : ParamKind) (id : String) (hint default : Option Expr)

end

/-- An ellipsis stands in for a missing expression. -/
instance : Inhabited Expr := ⟨.constant 0 .ellipsis⟩

/-- The line on which an expression starts. -/
def Expr.line : Expr → Nat
  | constant l _ | name l _ | display l _ _ | dict l _ | unary l _ _ | binary l _ _ _ | logic l _ _
  | compare l _ _ | choice l _ _ _ | call l _ _ | member l _ _ _ | subscript l _ _ | slice l _ _ _
  | star l _ | lambda l _ _ | bind l _ _ _ | comprehension l _ _ _ | dictComprehension l _ _ _
  | template l _ | yieldValue l _ | yieldFrom l _ | await l _ => l

/-- The name of a parameter. -/
def Param.id : Param → String
  | mk _ _ i _ _ => i

/-- How a parameter takes its argument. -/
def Param.kind : Param → ParamKind
  | mk _ k _ _ _ => k

/-- The value of a parameter without an argument. -/
def Param.default : Param → Option Expr
  | mk _ _ _ _ d => d

/-- The hint written behind a parameter. -/
def Param.hint : Param → Option Expr
  | mk _ _ _ h _ => h

/-- The line of a parameter. -/
def Param.line : Param → Nat
  | mk l _ _ _ _ => l

/-- Patterns of a `match` statement. -/
inductive Pattern where
  | value (line : Nat) (e : Expr)
  | singleton (line : Nat) (c : Constant)
  | capture (line : Nat) (id : String)
  | wildcard (line : Nat)
  | sequence (line : Nat) (items : List Pattern)
  | star (line : Nat) (id : Option String)
  | mapping (line : Nat) (items : List (Expr × Pattern)) (rest : Option String)
  | ofClass (line : Nat) (callee : Expr) (items : List Pattern) (named : List (String × Pattern))
  | either (line : Nat) (items : List Pattern)
  | named (line : Nat) (item : Pattern) (id : String)
  deriving Inhabited

/-- The line on which a pattern starts. -/
def Pattern.line : Pattern → Nat
  | value l _ | singleton l _ | capture l _ | wildcard l | sequence l _ | star l _ | mapping l _ _
  | ofClass l _ _ _ | either l _ | named l _ _ => l

/-- The names that an import statement binds: a dotted path and the name it is given. -/
structure Alias where
  path : String
  name : Option String
  deriving Repr, Inhabited

mutual

/-- Statements. -/
inductive Stmt where
  | expr (line : Nat) (value : Expr)
  | assign (line : Nat) (targets : List Expr) (value : Expr)
  | augment (line : Nat) (target : Expr) (op : BinaryOp) (value : Expr)
  | declare (line : Nat) (target hint : Expr) (value : Option Expr) (bare : Bool)
  | delete (line : Nat) (targets : List Expr)
  | pass (line : Nat)
  | breakLoop (line : Nat)
  | continueLoop (line : Nat)
  | ret (line : Nat) (value : Option Expr)
  | raise (line : Nat) (value cause : Option Expr)
  | assert (line : Nat) (test : Expr) (message : Option Expr)
  | importModule (line : Nat) (names : List Alias)
  /-- An import from a module, or of everything in it when no names are listed. -/
  | importFrom (line : Nat) (level : Nat) (path : Option String) (names : Option (List Alias))
  | global (line : Nat) (ids : List String)
  | nonlocal (line : Nat) (ids : List String)
  | ifElse (line : Nat) (test : Expr) (body orelse : List Stmt)
  | whileLoop (line : Nat) (test : Expr) (body orelse : List Stmt)
  | forLoop (line : Nat) (awaited : Bool) (target source : Expr) (body orelse : List Stmt)
  | withBlock (line : Nat) (awaited : Bool) (items : List (Expr × Option Expr)) (body : List Stmt)
  | tryBlock (line : Nat) (grouped : Bool) (body : List Stmt) (handlers : List Handler)
      (orelse final : List Stmt)
  | function (line : Nat) (awaited : Bool) (decorators : List Expr) (id : String)
      (params : List Param) (result : Option Expr) (body : List Stmt)
  | classDef (line : Nat) (decorators : List Expr) (id : String) (args : List Argument)
      (body : List Stmt)
  | matchCases (line : Nat) (subject : Expr) (cases : List Case)

/-- A handler of exceptions. -/
inductive Handler where
  | mk (line : Nat) (kind : Option Expr) (id : Option String) (body : List Stmt)

/-- A case of a `match` statement. -/
inductive Case where
  | mk (pattern : Pattern) (guard : Option Expr) (body : List Stmt)

end

/-- The empty statement stands in for a missing one. -/
instance : Inhabited Stmt := ⟨.pass 0⟩

/-- The line on which a statement starts. -/
def Stmt.line : Stmt → Nat
  | expr l _ | assign l _ _ | augment l _ _ _ | declare l _ _ _ _ | delete l _ | pass l
  | breakLoop l | continueLoop l | ret l _ | raise l _ _ | assert l _ _ | importModule l _ | importFrom l _ _ _
  | global l _ | nonlocal l _ | ifElse l _ _ _ | whileLoop l _ _ _ | forLoop l _ _ _ _ _
  | withBlock l _ _ _ | tryBlock l _ _ _ _ _ | function l _ _ _ _ _ _ | classDef l _ _ _ _
  | matchCases l _ _ => l

/-! ## The parts of a node -/

/-- The values in the arguments of a call. -/
def Argument.value : Argument → Expr
  | positional e | star e | named _ _ e | doubleStar e => e

/-- The expressions in the fields of a string, by nesting depth at most the fuel. -/
def Part.values : Nat → Part → List Expr
  | 0, _ => []
  | _, text _ => []
  | fuel + 1, field e _ format => e :: format.flatMap (Part.values fuel)

/-- The direct parts of an expression that belong to its own scope. For functions and comprehensions
these are the parts that are evaluated where they stand. -/
def Expr.parts : Expr → List Expr
  | constant _ _ | name _ _ => []
  | display _ _ items => items
  | dict _ items => items.filterMap (·.1) ++ items.map (·.2)
  | unary _ _ e | star _ e | bind _ _ _ e | yieldFrom _ e | await _ e | member _ e _ _ => [e]
  | binary _ _ a b | subscript _ a b => [a, b]
  | logic _ _ es => es
  | compare _ e rest => e :: rest.map (·.2)
  | choice _ t b o => [t, b, o]
  | call _ f args => f :: args.map Argument.value
  | slice _ a b c => [a, b, c].filterMap id
  | lambda _ ps _ => ps.filterMap Param.default
  | comprehension _ _ _ (.mk _ _ _ source _ :: _) => [source]
  | dictComprehension _ _ _ (.mk _ _ _ source _ :: _) => [source]
  | comprehension _ _ _ [] | dictComprehension _ _ _ [] => []
  | template _ ps => ps.flatMap (Part.values 10)
  | yieldValue _ e => e.toList

/-- The values of the parameters that have one: those that may be given by position first. -/
def defaultValues (ps : List Param) : List Expr :=
  (ps.filter (·.kind != .nameOnly)).filterMap Param.default ++
    (ps.filter (·.kind == .nameOnly)).filterMap Param.default

end Stencil.Script
