import Stencil.Script.Tree
import Stencil.Script.Token

/-!
# Reading tokens

A reader takes tokens from the front of a list and fails at the first token that fits nowhere, or at a
line that it names. The recursion of the grammar goes through a record of readers, one level of which
is built from the level below, so that every reader ends.
-/

namespace Stencil.Script

/-- Why reading stops: the tokens left when the first of them fits nowhere, or a line at fault together
with the tokens left. -/
inductive ParseFailure where
  | unexpected (rest : List Token)
  | reported (line : Nat) (rest : List Token)

/-- The tokens left at a failure. -/
def ParseFailure.rest : ParseFailure → List Token
  | unexpected r | reported _ r => r

/-- The failure that came further, or the second when both came as far. -/
def ParseFailure.further (a b : ParseFailure) : ParseFailure :=
  if a.rest.length < b.rest.length then a else b

/-- A reader of tokens. -/
abbrev Parse := StateT (List Token) (Except ParseFailure)

namespace Parse

/-- What the next token is. -/
def peek : Parse Lexeme := do
  match ← get with
  | t :: _ => return t.lexeme
  | [] => return .finish

/-- What the token behind the next one is. -/
def peekSecond : Parse Lexeme := do
  match ← get with
  | _ :: t :: _ => return t.lexeme
  | _ => return .finish

/-- The line of the next token. -/
def line : Parse Nat := do
  match ← get with
  | t :: _ => return t.line
  | [] => return 0

/-- Takes the next token. -/
def advance : Parse Unit :=
  modify List.tail

/-- Fails at the next token. -/
def unexpected {α : Type} : Parse α := do
  throw (.unexpected (← get))

/-- Fails at a line. -/
def report {α : Type} (line : Nat) : Parse α := do
  throw (.reported line (← get))

/-- Whether the next token is a mark. -/
def atOp (m : String) : Parse Bool := do
  match ← peek with
  | .op m' => return m == m'
  | _ => return false

/-- Whether the next token is a keyword. -/
def atWord (w : String) : Parse Bool := do
  match ← peek with
  | .keyword w' => return w == w'
  | _ => return false

/-- Takes a mark if it is next. -/
def takeOp (m : String) : Parse Bool := do
  if ← atOp m then
    advance
    return true
  return false

/-- Takes a keyword if it is next. -/
def takeWord (w : String) : Parse Bool := do
  if ← atWord w then
    advance
    return true
  return false

/-- Takes a mark, which has to be next. -/
def expectOp (m : String) : Parse Unit := do
  if ← takeOp m then return () else unexpected

/-- Takes a keyword, which has to be next. -/
def expectWord (w : String) : Parse Unit := do
  if ← takeWord w then return () else unexpected

/-- Takes a name, which has to be next. -/
def name : Parse String := do
  match ← peek with
  | .name id =>
    advance
    return id
  | _ => unexpected

/-- Runs a step again and again until it gives nothing more. Each step but the last takes a token, so
the tokens themselves bound the steps. -/
def iterate {α : Type} (step : α → Parse (Option α)) : List Token → α → Parse α
  | [], a => return a
  | _ :: fuel, a => do
    match ← step a with
    | some b => iterate step fuel b
    | none => return a

/-- Runs a step as long as it gives something. -/
def loop {α : Type} (step : α → Parse (Option α)) (start : α) : Parse α := do
  iterate step (← get) start

/-- Tries a reader. Where it fails nothing is taken, and the failure is given. -/
def attempt {α : Type} (p : Parse α) : Parse (Except ParseFailure α) := fun ts =>
  match p ts with
  | .ok (a, rest) => .ok (.ok a, rest)
  | .error f => .ok (.error f, ts)

/-- Tries readers in turn. When both fail, the failure that came further stands. -/
def either {α : Type} (p q : Parse α) : Parse α := fun ts =>
  match p ts with
  | .ok r => .ok r
  | .error f =>
    match q ts with
    | .ok r => .ok r
    | .error g => .error (f.further g)

/-- Whether a reader succeeds here. Nothing is taken. -/
def succeeds {α : Type} (p : Parse α) : Parse Bool := fun ts =>
  match p ts with
  | .ok _ => .ok (true, ts)
  | .error _ => .ok (false, ts)

end Parse

/-- The readers that the grammar uses recursively. -/
structure Grammar where
  expression : Parse Expr
  disjunction : Parse Expr
  bitOr : Parse Expr
  factor : Parse Expr
  pattern : Parse Pattern
  statement : Parse (List Stmt)

/-- Readers that always fail, below the lowest level. -/
def Grammar.none : Grammar :=
  ⟨Parse.unexpected, Parse.unexpected, Parse.unexpected, Parse.unexpected, Parse.unexpected,
    Parse.unexpected⟩

end Stencil.Script
