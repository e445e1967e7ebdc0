import Stencil.Script.Parser.Pattern

/-!
# Reading statements

Simple statements share lines; compound ones have a header and a block. A whole script is a sequence
of statements, and a script that cannot be read is at fault in one line.
-/

namespace Stencil.Script

open Parse

/-! ## Simple statements -/

/-- The operators of augmented assignments. -/
def augmentOps : List (String × BinaryOp) :=
  [("+=", .add), ("-=", .sub), ("*=", .mul), ("@=", .matMul), ("/=", .div), ("//=", .floorDiv),
   ("%=", .mod), ("**=", .pow), ("<<=", .shiftLeft), (">>=", .shiftRight), ("&=", .bitAnd),
   ("|=", .bitOr), ("^=", .bitXor)]

/-- Whether an expression can take a hint or an augmented assignment. -/
def isSingleTarget : Expr → Bool
  | .name _ _ | .member _ _ _ _ | .subscript _ _ _ => true
  | _ => false

/-- The assignments behind a first target and its `=`. -/
def assignment (g : Grammar) (l : Nat) (first : Expr) : Parse Stmt := do
  checkTarget .assigned first
  let (targets, value) ← loop (fun (targets, value) => do
    if ← atOp "=" then
      match value with
      | .yieldValue vl _ | .yieldFrom vl _ => report vl
      | _ =>
        checkTarget .assigned value
        advance
        let v ← yieldOrExpressions g
        return some (value :: targets, v)
    return none) (([], first) : List Expr × Expr)
  return .assign l targets.reverse value

/-- A hint behind a target, and the value behind the hint. -/
def declaration (g : Grammar) (l : Nat) (target : Expr) (bracketed : Bool) : Parse Stmt := do
  expectOp ":"
  let hint ← g.expression
  if !isSingleTarget target then report target.line
  let bare := !bracketed && match target with
    | .name _ _ => true
    | _ => false
  if ← takeOp "=" then
    let v ← yieldOrExpressions g
    return .declare l target hint (some v) bare
  return .declare l target hint none bare

/-- An expression statement or an assignment of any kind. -/
def expressionStatement (g : Grammar) : Parse Stmt := do
  let l ← line
  let bracketed ← atOp "("
  if ← atWord "yield" then
    let e ← yieldExpression g
    if ← atOp "=" then report l
    return .expr l e
  let e ← starExpressions g
  match ← peek with
  | .op "=" => assignment g l e
  | .op ":" => declaration g l e bracketed
  | .op m =>
    match augmentOps.lookup m with
    | some op =>
      advance
      let v ← yieldOrExpressions g
      if isSingleTarget e then return .augment l e op v
      report e.line
    | none => return .expr l e
  | _ => return .expr l e

/-- A path of names and dots. -/
def dottedPath : Parse String := do
  let first ← name
  loop (fun s => do
    if ← takeOp "." then
      let id ← name
      return some (s ++ "." ++ id)
    return none) first

/-- A name for something imported. -/
def aliasFor (path : String) : Parse Alias := do
  if ← takeWord "as" then
    let id ← name
    return ⟨path, some id⟩
  return ⟨path, none⟩

/-- Things separated by commas, without one at the end. -/
def commaList {α : Type} (item : Parse α) : Parse (List α) := do
  let first ← item
  let items ← loop (fun acc => do
    if ← takeOp "," then
      let a ← item
      return some (a :: acc)
    return none) [first]
  return items.reverse

/-- An import of modules. -/
def importStatement : Parse Stmt := do
  let l ← line
  expectWord "import"
  let names ← commaList (do aliasFor (← dottedPath))
  return .importModule l names

/-- The leading dots of a relative path, as a number of levels. -/
def relativeLevel : Parse Nat :=
  loop (fun n => do
    if ← takeOp "." then return some (n + 1)
    if ← takeOp "..." then return some (n + 3)
    return none) 0

/-- The names imported from a module. -/
def importedNames : Parse (Option (List Alias)) := do
  let one : Parse Alias := do aliasFor (← name)
  if ← takeOp "*" then return none
  if ← takeOp "(" then
    let first ← one
    let items ← loop (fun acc => do
      if ← takeOp "," then
        if ← atOp ")" then return none
        let a ← one
        return some (a :: acc)
      return none) [first]
    expectOp ")"
    return some items.reverse
  let names ← commaList one
  return some names

/-- An import from a module. -/
def importFromStatement : Parse Stmt := do
  let l ← line
  expectWord "from"
  let level ← relativeLevel
  let path ← if level ≠ 0 && (← atWord "import") then pure none
    else do
      let p ← dottedPath
      pure (some p)
  expectWord "import"
  let names ← importedNames
  return .importFrom l level path names

/-- Whether a simple statement may end here. -/
def atStatementEnd : Parse Bool := do
  match ← peek with
  | .newline | .op ";" => return true
  | _ => return false

/-- A statement that deletes targets. -/
def deleteStatement (g : Grammar) : Parse Stmt := do
  let l ← line
  expectWord "del"
  let e ← starExpressions g
  checkTarget .deleted e
  if !(← atStatementEnd) then unexpected
  return .delete l [e]

/-- An optional expression behind a word. -/
def behindWord (w : String) (p : Parse Expr) : Parse (Option Expr) := do
  if ← takeWord w then
    let e ← p
    return some e
  return none

/-- A simple statement. -/
def simpleStatement (g : Grammar) : Parse Stmt := do
  let l ← line
  match ← peek with
  | .keyword "pass" =>
    advance
    return .pass l
  | .keyword "break" =>
    advance
    return .breakLoop l
  | .keyword "continue" =>
    advance
    return .continueLoop l
  | .keyword "return" =>
    advance
    if (← peek).startsItem then
      let e ← starExpressions g
      return .ret l (some e)
    return .ret l none
  | .keyword "raise" =>
    advance
    if (← peek).startsExpression then
      let e ← g.expression
      let cause ← behindWord "from" g.expression
      return .raise l (some e) cause
    return .raise l none none
  | .keyword "assert" =>
    advance
    let test ← g.expression
    if ← takeOp "," then
      let m ← g.expression
      return .assert l test (some m)
    return .assert l test none
  | .keyword "global" =>
    advance
    let ids ← commaList name
    return .global l ids
  | .keyword "nonlocal" =>
    advance
    let ids ← commaList name
    return .nonlocal l ids
  | .keyword "del" => deleteStatement g
  | .keyword "import" => importStatement
  | .keyword "from" => importFromStatement
  | _ => expressionStatement g

/-- The simple statements of one line. -/
def simpleLine (g : Grammar) : Parse (List Stmt) := do
  let first ← simpleStatement g
  let items ← loop (fun acc => do
    if ← takeOp ";" then
      match ← peek with
      | .newline => return none
      | _ =>
        let s ← simpleStatement g
        return some (s :: acc)
    return none) [first]
  match ← peek with
  | .newline =>
    advance
    return items.reverse
  | _ => unexpected

/-! ## Compound statements -/

/-- Whether a block ends here. -/
def atBlockEnd : Parse Bool := do
  match ← peek with
  | .dedent | .finish => return true
  | _ => return false

/-- The statements of a block on lines of its own. -/
def indented (g : Grammar) : Parse (List Stmt) := do
  let first ← g.statement
  let ss ← loop (fun acc => do
    if ← atBlockEnd then return none
    let s ← g.statement
    return some (s.reverse ++ acc)) first.reverse
  match ← peek with
  | .dedent =>
    advance
    return ss.reverse
  | _ => unexpected

/-- The block behind the colon of a header: indented lines, or simple statements on the same line. -/
def block (g : Grammar) : Parse (List Stmt) := do
  match ← peek with
  | .newline =>
    advance
    match ← peek with
    | .indent =>
      advance
      indented g
    | .fault _ => unexpected
    | _ =>
      let l ← line
      report l
  | _ => simpleLine g

/-- A colon and the block behind it. -/
def colonBlock (g : Grammar) : Parse (List Stmt) := do
  expectOp ":"
  block g

/-- A block behind a word, if the word is next. -/
def optionalBlock (g : Grammar) (w : String) : Parse (List Stmt) := do
  if ← takeWord w then colonBlock g else return []

/-- The alternatives behind a condition: the last first, each with its line, test and block. -/
def alternatives (g : Grammar) : Parse (List (Nat × Expr × List Stmt)) :=
  loop (fun acc => do
    let l ← line
    if ← takeWord "elif" then
      let test ← namedExpression g
      let body ← colonBlock g
      return some ((l, test, body) :: acc)
    return none) []

/-- A conditional statement. -/
def ifStatement (g : Grammar) : Parse Stmt := do
  let l ← line
  expectWord "if"
  let test ← namedExpression g
  let body ← colonBlock g
  let elifs ← alternatives g
  let orelse ← optionalBlock g "else"
  let rest := elifs.foldl (fun orelse (l, test, body) => [.ifElse l test body orelse]) orelse
  return .ifElse l test body rest

/-- A loop on a condition. -/
def whileStatement (g : Grammar) : Parse Stmt := do
  let l ← line
  expectWord "while"
  let test ← namedExpression g
  let body ← colonBlock g
  let orelse ← optionalBlock g "else"
  return .whileLoop l test body orelse

/-- A loop over items. -/
def forStatement (g : Grammar) (l : Nat) (awaited : Bool) : Parse Stmt := do
  expectWord "for"
  let target ← loopTargets g
  expectWord "in"
  let source ← starExpressions g
  let body ← colonBlock g
  let orelse ← optionalBlock g "else"
  return .forLoop l awaited target source body orelse

/-- One item of a `with` statement. -/
def withItem (g : Grammar) : Parse (Expr × Option Expr) := do
  let e ← g.expression
  if ← takeWord "as" then
    let t ← starTarget g
    checkTarget .assigned t
    if (← atOp ",") || (← atOp ")") || (← atOp ":") then return (e, some t)
    unexpected
  return (e, none)

/-- The items of a `with` statement within brackets, and the colon behind them. -/
def bracketedItems (g : Grammar) : Parse (List (Expr × Option Expr)) := do
  expectOp "("
  let first ← withItem g
  let items ← loop (fun acc => do
    if ← takeOp "," then
      if ← atOp ")" then return none
      let i ← withItem g
      return some (i :: acc)
    return none) [first]
  expectOp ")"
  expectOp ":"
  return items.reverse

/-- The items of a `with` statement and the colon behind them. -/
def openItems (g : Grammar) : Parse (List (Expr × Option Expr)) := do
  let items ← commaList (withItem g)
  expectOp ":"
  return items

/-- A block that is entered and left through context values. -/
def withStatement (g : Grammar) (l : Nat) (awaited : Bool) : Parse Stmt := do
  expectWord "with"
  let items ← if ← atOp "(" then either (bracketedItems g) (openItems g) else openItems g
  let body ← block g
  return .withBlock l awaited items body

/-- The handlers behind a block, the last first, and whether they handle groups. -/
def handler (g : Grammar) (acc : List Handler × Option Bool) :
    Parse (Option (List Handler × Option Bool)) := do
  let l ← line
  if ← takeWord "except" then
    let grouped ← takeOp "*"
    if acc.2 == some (!grouped) then unexpected
    if (← atOp ":") && !grouped then
      let body ← colonBlock g
      return some (.mk l none none body :: acc.1, some grouped)
    let kind ← g.expression
    if ← takeWord "as" then
      let id ← name
      let body ← colonBlock g
      return some (.mk l (some kind) (some id) body :: acc.1, some grouped)
    let body ← colonBlock g
    return some (.mk l (some kind) none body :: acc.1, some grouped)
  return none

/-- A block with handlers. -/
def tryStatement (g : Grammar) : Parse Stmt := do
  let l ← line
  expectWord "try"
  let body ← colonBlock g
  let (handlers, grouped) ← loop (handler g) ([], none)
  if handlers.isEmpty then
    expectWord "finally"
    let final ← colonBlock g
    return .tryBlock l false body [] [] final
  let orelse ← optionalBlock g "else"
  let final ← optionalBlock g "finally"
  return .tryBlock l (grouped == some true) body handlers.reverse orelse final

/-- A function definition behind its decorators. -/
def functionStatement (g : Grammar) (l : Nat) (awaited : Bool) (decorators : List Expr) :
    Parse Stmt := do
  expectWord "def"
  let id ← name
  expectOp "("
  let ps ← params g ")" true
  expectOp ")"
  if ← takeOp "->" then
    let r ← g.expression
    let body ← colonBlock g
    return .function l awaited decorators id ps (some r) body
  let body ← colonBlock g
  return .function l awaited decorators id ps none body

/-- A class definition behind its decorators. -/
def classStatement (g : Grammar) (decorators : List Expr) : Parse Stmt := do
  let l ← line
  expectWord "class"
  let id ← name
  let start ← line
  let args ← if ← takeOp "(" then arguments g start else pure []
  let body ← colonBlock g
  return .classDef l decorators id args body

/-- The decorators in front of a definition. -/
def decoratorLines (g : Grammar) : Parse (List Expr) := do
  let ds ← loop (fun acc => do
    if ← takeOp "@" then
      let e ← namedExpression g
      match ← peek with
      | .newline =>
        advance
        return some (e :: acc)
      | _ => unexpected
    return none) []
  return ds.reverse

/-- A definition behind its decorators. -/
def decorated (g : Grammar) : Parse Stmt := do
  let ds ← decoratorLines g
  let l ← line
  if ← atWord "class" then classStatement g ds
  else if ← takeWord "async" then functionStatement g l true ds
  else functionStatement g l false ds

/-- What follows the word `async`. -/
def asyncStatement (g : Grammar) : Parse Stmt := do
  let l ← line
  expectWord "async"
  match ← peek with
  | .keyword "def" => functionStatement g l true []
  | .keyword "for" => forStatement g l true
  | .keyword "with" => withStatement g l true
  | _ => unexpected

/-- One case of a `match` statement. -/
def matchCase (g : Grammar) : Parse Case := do
  match ← peek with
  | .name "case" => advance
  | _ => unexpected
  let p ← openPattern g
  let guard ← behindWord "if" (namedExpression g)
  let body ← colonBlock g
  return .mk p guard body

/-- Whether a case starts here. -/
def atCase : Parse Bool := do
  match ← peek with
  | .name "case" => return true
  | _ => return false

/-- A `match` statement. -/
def matchStatement (g : Grammar) : Parse Stmt := do
  let l ← line
  advance
  let subjectLine ← line
  let first ← starNamed g
  let isStar := match first with
    | .star _ _ => true
    | _ => false
  let subject ← if ← atOp "," then do
      let items ← moreItems (starNamed g) first
      pure (.display subjectLine .tuple items)
    else if isStar then unexpected else pure first
  expectOp ":"
  match ← peek with
  | .newline => advance
  | _ => unexpected
  match ← peek with
  | .indent => advance
  | _ => unexpected
  let c ← matchCase g
  let cs ← loop (fun acc => do
    if ← atCase then
      let c ← matchCase g
      return some (c :: acc)
    return none) [c]
  match ← peek with
  | .dedent =>
    advance
    return .matchCases l subject cs.reverse
  | _ => unexpected

/-- A statement, or the simple statements of one line. -/
def statement (g : Grammar) : Parse (List Stmt) := do
  let one (p : Parse Stmt) : Parse (List Stmt) := do
    let s ← p
    return [s]
  let l ← line
  match ← peek with
  | .keyword "if" => one (ifStatement g)
  | .keyword "while" => one (whileStatement g)
  | .keyword "for" => one (forStatement g l false)
  | .keyword "with" => one (withStatement g l false)
  | .keyword "try" => one (tryStatement g)
  | .keyword "def" => one (functionStatement g l false [])
  | .keyword "class" => one (classStatement g [])
  | .keyword "async" => one (asyncStatement g)
  | .op "@" => one (decorated g)
  | .name "match" => either (one (matchStatement g)) (simpleLine g)
  | _ => simpleLine g

/-! ## Whole scripts -/

/-- The readers whose brackets and blocks nest at most to the given depth. -/
def Grammar.level : Nat → Grammar
  | 0 => Grammar.none
  | n + 1 => {
    expression := fun ts => Script.expression (level n) ts
    disjunction := fun ts => Script.disjunction (level n) ts
    bitOr := fun ts => Script.bitOr (level n) ts
    factor := fun ts => Script.factor (level n) ts
    pattern := fun ts => Script.pattern (level n) ts
    statement := fun ts => Script.statement (level n) ts }

/-- The statements of a whole script. -/
def wholeScript (g : Grammar) : Parse (List Stmt) := do
  let ss ← loop (fun acc => do
    match ← peek with
    | .finish => return none
    | _ =>
      let s ← g.statement
      return some (s.reverse ++ acc)) []
  match ← peek with
  | .finish => return ss.reverse
  | _ => unexpected

/-- The line at fault when reading stops. A fault within one token is reported wherever it is, and a
bracket left open where it opens before the place where reading stopped. -/
def faultLine (tokens : List Token) (f : ParseFailure) : Nat :=
  let here : Nat := match f.rest with
    | t :: _ => t.line
    | [] => 0
  let override (line : Nat) : Nat :=
    match tokens.getLast? with
    | some ⟨.fault fault, _, _, _⟩ =>
      if fault.cause.isLocal then fault.line
      else
        match fault.openLine with
        | some l => if l < here then l else line
        | none => line
    | _ => line
  match f with
  | .reported line _ => override line
  | .unexpected (t :: _) =>
    match t.lexeme with
    | .fault fault => fault.reportLine
    | .indent | .dedent => t.line
    | _ => override t.line
  | .unexpected [] => override 0

/-- A level of readers for a text and its tokens. Strings with fields are single tokens, so it is the
text that bounds how deep their values nest. -/
def readingLevel (source : Text) (tokens : List Token) : Nat :=
  4 * (tokens.length + source.length) + 20

/-- Reads a script; where that fails, the line at fault is given. -/
def parse (source : Text) : Except Nat (List Stmt) :=
  let tokens := lex source
  match wholeScript (Grammar.level (readingLevel source tokens)) tokens with
  | .ok (ss, _) => .ok ss
  | .error f => .error (faultLine tokens f)

end Stencil.Script
