import Stencil.Script.Parser.Basic
import Stencil.Script.Literal
import Stencil.Script.Lexer

/-!
# Reading expressions

Expressions by falling precedence: conditional expressions and functions, `or`, `and`, `not`,
comparisons, bit operators, sums, products, signs, powers, and primaries with their trailers. Some
faults are recognised only to name the line on which the faulty expression starts.
-/

namespace Stencil.Script

open Parse

/-- Whether an expression may start with a token. -/
def Lexeme.startsExpression : Lexeme → Bool
  | .name _ | .number _ | .string _ => true
  | .op m => ["(", "[", "\x7b", "-", "+", "~", "..."].contains m
  | .keyword w => ["None", "True", "False", "not", "lambda", "await"].contains w
  | _ => false

/-- Whether an item of a list of expressions may start with a token. -/
def Lexeme.startsItem (l : Lexeme) : Bool :=
  match l with
  | .op "*" => true
  | _ => l.startsExpression

/-- Whether an expression that nothing separates from the one before it may start with a token. -/
def Lexeme.startsStrayExpression (l : Lexeme) : Bool :=
  match l with
  | .op m => ["\x7b", "~", "..."].contains m
  | _ => l.startsExpression

/-! ## Operators -/

/-- Operands joined by operators of one precedence, which group to the left. -/
def leftAssoc (ops : List (String × BinaryOp)) (operand : Parse Expr) : Parse Expr := do
  let line ← line
  let first ← operand
  loop (fun left => do
    match ← peek with
    | .op m =>
      match ops.lookup m with
      | some op =>
        advance
        let right ← operand
        return some (.binary line op left right)
      | none => return none
    | _ => return none) first

/-- Products of signed powers. -/
def term (g : Grammar) : Parse Expr :=
  leftAssoc [("*", .mul), ("/", .div), ("//", .floorDiv), ("%", .mod), ("@", .matMul)] g.factor

/-- Sums. -/
def sum (g : Grammar) : Parse Expr :=
  leftAssoc [("+", .add), ("-", .sub)] (term g)

/-- Shifts. -/
def shift (g : Grammar) : Parse Expr :=
  leftAssoc [("<<", .shiftLeft), (">>", .shiftRight)] (sum g)

/-- Bit operators, the loosest of which is `|`. -/
def bitOr (g : Grammar) : Parse Expr :=
  leftAssoc [("|", .bitOr)] (leftAssoc [("^", .bitXor)] (leftAssoc [("&", .bitAnd)] (shift g)))

/-- Takes a comparison operator if one is next. -/
def compareOp? : Parse (Option CompareOp) := do
  match ← peek with
  | .op m =>
    let op? : Option CompareOp := match m with
      | "==" => some .eq
      | "!=" => some .ne
      | "<" => some .lt
      | "<=" => some .le
      | ">" => some .gt
      | ">=" => some .ge
      | _ => none
    if op?.isSome then advance
    return op?
  | .keyword "in" =>
    advance
    return some .isIn
  | .keyword "not" =>
    match ← peekSecond with
    | .keyword "in" =>
      advance
      advance
      return some .notIn
    | _ => return none
  | .keyword "is" =>
    advance
    if ← takeWord "not" then return some .isNot
    return some .is
  | _ => return none

/-- A chain of comparisons. -/
def comparison (g : Grammar) : Parse Expr := do
  let line ← line
  let first ← bitOr g
  let rest ← loop (fun acc => do
    match ← compareOp? with
    | some op =>
      let e ← bitOr g
      return some ((op, e) :: acc)
    | none => return none) []
  if rest.isEmpty then return first
  return .compare line first rest.reverse

/-- The lines of the words `not` at the front, the last first. -/
def negations : Parse (List Nat) :=
  loop (fun acc => do
    let l ← line
    if ← takeWord "not" then return some (l :: acc)
    return none) []

/-- A comparison behind any number of `not`. -/
def inversion (g : Grammar) : Parse Expr := do
  let lines ← negations
  let e ← comparison g
  return lines.foldl (fun e l => .unary l .not e) e

/-- Operands joined by one word. -/
def chain (word : String) (conjunction : Bool) (operand : Parse Expr) : Parse Expr := do
  let line ← line
  let first ← operand
  let rest ← loop (fun acc => do
    if ← takeWord word then
      let e ← operand
      return some (e :: acc)
    return none) []
  if rest.isEmpty then return first
  return .logic line conjunction (first :: rest.reverse)

/-- Operands joined by `or`. -/
def disjunction (g : Grammar) : Parse Expr :=
  chain "or" false (chain "and" true (inversion g))

/-! ## Parameters -/

/-- The parameters read so far, the last first, and which of the marks and defaults have been seen. -/
structure ParamState where
  params : List Param
  slash : Bool
  star : Bool
  defaulted : Bool
  closed : Bool

/-- A hint behind a parameter, where hints are allowed. -/
def hint? (g : Grammar) (hints starred : Bool) : Parse (Option Expr) := do
  if hints && (← atOp ":") then
    advance
    let l ← line
    if starred then
      if ← takeOp "*" then
        let e ← g.bitOr
        return some (.star l e)
    let e ← g.expression
    return some e
  return none

/-- One item of a parameter list. -/
def paramItem (g : Grammar) (ending : String) (hints : Bool) (s : ParamState) :
    Parse ParamState := do
  let l ← line
  if s.closed then unexpected
  match ← peek with
  | .op "/" =>
    if s.slash || s.star || s.params.isEmpty then unexpected
    advance
    let params := s.params.map fun
      | .mk l _ id h d => .mk l .positionOnly id h d
    return { s with params, slash := true }
  | .op "*" =>
    if s.star then unexpected
    advance
    match ← peek with
    | .op "," =>
      match ← peekSecond with
      | .name _ => return { s with star := true }
      | _ => report l
    | .op m =>
      if m == ending then report l else unexpected
    | _ =>
      let id ← name
      let h ← hint? g hints true
      return { s with params := .mk l .positions id h none :: s.params, star := true }
  | .op "**" =>
    advance
    let id ← name
    let h ← hint? g hints false
    return { s with params := .mk l .names id h none :: s.params, closed := true }
  | _ =>
    let id ← name
    let h ← hint? g hints false
    if ← takeOp "=" then
      let d ← g.expression
      let kind : ParamKind := if s.star then .nameOnly else .plain
      return { s with params := .mk l kind id h (some d) :: s.params, defaulted := true }
    if s.star then return { s with params := .mk l .nameOnly id h none :: s.params }
    if s.defaulted then report l
    return { s with params := .mk l .plain id h none :: s.params }

/-- A parameter list up to the mark that ends it, which is not taken. -/
def params (g : Grammar) (ending : String) (hints : Bool) : Parse (List Param) := do
  if ← atOp ending then return []
  let first ← paramItem g ending hints ⟨[], false, false, false, false⟩
  let s ← loop (fun s => do
    if ← atOp ending then return none
    expectOp ","
    if ← atOp ending then return none
    let s ← paramItem g ending hints s
    return some s) first
  return s.params.reverse

/-! ## Conditional expressions and functions -/

/-- A function written as an expression. -/
def lambda (g : Grammar) : Parse Expr := do
  let l ← line
  expectWord "lambda"
  let ps ← params g ":" false
  expectOp ":"
  let body ← g.expression
  return .lambda l ps body

/-- The words that old statements with an unbracketed operand start with. -/
def isOldStatement : Expr → Bool
  | .name _ id => id == "print" || id == "exec"
  | _ => false

/-- Whether what starts here may be something else than two expressions side by side. -/
def startsAmbiguously : Parse Bool := do
  match ← peek with
  | .name id =>
    if id == "match" || id == "case" || id == "_" then return true
    match ← peekSecond with
    | .string _ => return true
    | _ => return false
  | _ => return false

/-- Whether the first tokens of `before` that `after` no longer holds end within brackets. -/
def endsInBrackets (before after : List Token) : Bool :=
  match (before.take (before.length - after.length)).getLast? with
  | some t => t.depth ≠ 0
  | none => false

/-- Fails where an expression directly follows another one: within brackets at the line of the first,
and at any place when the first is the word of an old statement. -/
def rejectNeighbour (g : Grammar) (ambiguous : Bool) (e : Expr) : Parse Unit := do
  if (← peek).startsStrayExpression then
    let ts ← get
    let next ← if ← atWord "lambda" then pure g.expression else pure g.disjunction
    match next ts with
    | .ok (_, rest) =>
      if isOldStatement e then report e.line
      if !ambiguous && endsInBrackets ts rest then report e.line
    | .error _ => return ()

/-- An expression: a function, or a disjunction which may choose between two values. -/
def expression (g : Grammar) : Parse Expr := do
  if ← atWord "lambda" then lambda g
  else
    let l ← line
    let ambiguous ← startsAmbiguously
    let body ← disjunction g
    if ← takeWord "if" then
      let test ← disjunction g
      if ← takeWord "else" then
        let orelse ← g.expression
        return .choice l test body orelse
      if ← atOp ":" then unexpected
      report l
    rejectNeighbour g ambiguous body
    return body

/-- Whether an expression is one that cannot stand left of `=` even by mistake. -/
def isPlainDisplay : Expr → Bool
  | .display _ .list _ | .display _ .tuple _ | .comprehension _ .generator _ _
  | .constant _ (.bool _) | .constant _ .none => true
  | _ => false

/-- An expression that may bind a name with `:=`. -/
def namedExpression (g : Grammar) : Parse Expr := do
  let l ← line
  match ← peek, ← peekSecond with
  | .name id, .op ":=" =>
    advance
    advance
    let e ← g.expression
    return .bind l id l e
  | _, _ =>
    let e ← g.expression
    if ← atOp ":=" then report l
    if (← atOp "=") && !isPlainDisplay e then
      let ts ← get
      match g.bitOr ts.tail with
      | .ok (_, t :: _) =>
        match t.lexeme with
        | .op "=" | .op ":=" => unexpected
        | _ => report l
      | _ => unexpected
    return e

/-- An item of a display: an expression, or an unpacked one. -/
def starNamed (g : Grammar) : Parse Expr := do
  let l ← line
  if ← takeOp "*" then
    let e ← g.bitOr
    return .star l e
  namedExpression g

/-- An item of an expression list outside brackets. -/
def starExpression (g : Grammar) : Parse Expr := do
  let l ← line
  if ← takeOp "*" then
    let e ← g.bitOr
    return .star l e
  g.expression

/-- The items behind a first one, each after a comma; a comma may end them. -/
def moreItems (item : Parse Expr) (first : Expr) : Parse (List Expr) := do
  let items ← loop (fun acc => do
    if (← atOp ",") && (← peekSecond).startsItem then
      advance
      let e ← item
      return some (e :: acc)
    return none) [first]
  discard (takeOp ",")
  return items.reverse

/-- One expression, or several separated by commas, which make a tuple. -/
def listOf (item : Parse Expr) : Parse Expr := do
  let l ← line
  let first ← item
  if ← atOp "," then
    let items ← moreItems item first
    return .display l .tuple items
  return first

/-- An expression list. -/
def starExpressions (g : Grammar) : Parse Expr :=
  listOf (starExpression g)

/-- A `yield` expression. -/
def yieldExpression (g : Grammar) : Parse Expr := do
  let l ← line
  expectWord "yield"
  if ← takeWord "from" then
    let e ← g.expression
    return .yieldFrom l e
  if (← peek).startsItem then
    let e ← starExpressions g
    return .yieldValue l (some e)
  return .yieldValue l none

/-- A `yield` expression or an expression list. -/
def yieldOrExpressions (g : Grammar) : Parse Expr := do
  if ← atWord "yield" then yieldExpression g else starExpressions g

/-! ## Targets -/

/-- The uses of a target, which differ in what they allow. -/
inductive TargetUse where
  | assigned
  | deleted
  deriving DecidableEq

/-- The first part of an expression, by nesting depth at most the fuel, that cannot be a target. -/
def invalidTarget? (use : TargetUse) : Nat → Expr → Option Expr
  | 0, e => some e
  | fuel + 1, e =>
    match e with
    | .display _ .list items | .display _ .tuple items =>
      items.findSome? (invalidTarget? use fuel)
    | .star _ inner => if use = .deleted then some e else invalidTarget? use fuel inner
    | .name _ _ | .subscript _ _ _ | .member _ _ _ _ => none
    | _ => some e

/-- Fails at the line of the first part that cannot be a target. -/
def checkTarget (use : TargetUse) (e : Expr) : Parse Unit :=
  match invalidTarget? use 1000 e with
  | some bad => report bad.line
  | none => return ()

/-- A target outside an assignment, before the word or mark that follows it. -/
def starTarget (g : Grammar) : Parse Expr := do
  let l ← line
  if ← takeOp "*" then
    let e ← g.bitOr
    return .star l e
  g.bitOr

/-- The targets of a loop. -/
def loopTargets (g : Grammar) : Parse Expr := do
  let e ← listOf (starTarget g)
  checkTarget .assigned e
  return e

/-! ## Comprehensions -/

/-- Whether the clauses of a comprehension start here. -/
def atClauses : Parse Bool := do
  if ← atWord "for" then return true
  if ← atWord "async" then
    match ← peekSecond with
    | .keyword "for" => return true
    | _ => return false
  return false

/-- One clause of a comprehension. -/
def clause (g : Grammar) : Parse Clause := do
  let l ← line
  let awaited ← takeWord "async"
  expectWord "for"
  let target ← loopTargets g
  expectWord "in"
  let source ← g.disjunction
  let conditions ← loop (fun acc => do
    if ← takeWord "if" then
      let c ← g.disjunction
      return some (c :: acc)
    return none) []
  return .mk l awaited target source conditions.reverse

/-- The clauses of a comprehension. -/
def clauses (g : Grammar) : Parse (List Clause) := do
  let first ← clause g
  let cs ← loop (fun acc => do
    if ← atClauses then
      let c ← clause g
      return some (c :: acc)
    return none) [first]
  return cs.reverse

/-- The clauses behind an element, which must not be an unpacked one. -/
def clausesFor (g : Grammar) (element : Expr) : Parse (List Clause) := do
  match element with
  | .star l _ =>
    discard (clauses g)
    report l
  | _ => clauses g

/-! ## Strings -/

/-- Turns the pieces of a string with fields into parts, reading the values of the fields. -/
def partsOf (g : Grammar) (line : Nat) : Nat → List Piece → Parse (List Part)
  | 0, _ => unexpected
  | _, [] => return []
  | fuel + 1, .text t :: r => do
    let rest ← partsOf g line fuel r
    return .text (String.ofList t) :: rest
  | fuel + 1, .field value breaks shown conversion format :: r => do
    let inner := lexInner value (line + breaks)
    match starExpressions g inner with
    | .error f =>
      match f with
      | .unexpected (t :: _) =>
        match t.lexeme with
        | .fault f' => report f'.reportLine
        | _ => report t.line
      | .unexpected [] => report line
      | .reported l _ => report l
    | .ok (e, ⟨.newline, _, _, _⟩ :: _) =>
      let spec ← partsOf g line fuel (format.getD [])
      let rest ← partsOf g line fuel r
      let field : Part := .field e conversion spec
      match shown with
      | some t => return .text (String.ofList t) :: field :: rest
      | none => return field :: rest
    | .ok (_, t :: _) => report t.line
    | .ok (_, []) => report line

/-- Joins neighbouring texts. -/
def joinTexts : List Part → List Part
  | .text a :: r =>
    match joinTexts r with
    | .text b :: r' => .text (a ++ b) :: r'
    | r' => .text a :: r'
  | p :: r => p :: joinTexts r
  | [] => []

/-- Takes the string tokens at the front. -/
def stringTokens : Parse (List (StringLit × Nat)) := do
  let ts ← loop (fun acc => do
    match ← peek with
    | .string s =>
      let l ← line
      advance
      return some ((s, l) :: acc)
    | _ => return none) []
  return ts.reverse

/-- Neighbouring string literals, which are one string, byte string or string with fields. -/
def strings (g : Grammar) : Parse Expr := do
  let start ← line
  let toks ← stringTokens
  let after ← line
  let bytes := toks.any (·.1.bytes)
  if bytes && toks.any (!·.1.bytes) then report after
  if bytes then
    match toks.find? fun t => t.1.body.any (0x80 ≤ ·.toNat) with
    | some t => report t.2
    | none =>
      let texts ← toks.mapM fun t =>
        match literalText t.1.raw true t.1.body with
        | some x => pure (x.map Char.toNat)
        | none => report after
      return .constant start (.bytes texts.flatten)
  else if toks.any (·.1.formatted) then
    let parts ← toks.mapM fun t =>
      if t.1.formatted then
        match splitPieces t.1.raw (t.1.body.length + 1) 0 0 t.1.body with
        | some (ps, []) => partsOf g t.2 (t.1.body.length + 1) ps
        | _ => report after
      else
        match literalText t.1.raw false t.1.body with
        | some x => pure [.text (String.ofList x)]
        | none => report after
    return .template start (joinTexts parts.flatten)
  else
    let texts ← toks.mapM fun t =>
      match literalText t.1.raw false t.1.body with
      | some x => pure x
      | none => report after
    return .constant start (.str (String.ofList texts.flatten))

/-! ## Displays -/

/-- Fails at an element list in front of the clauses of a comprehension. -/
def rejectClauses (g : Grammar) (first : Expr) : Parse Unit := do
  if ← atClauses then
    discard (clauses g)
    report first.line

/-- What round brackets hold. -/
def parenthesised (g : Grammar) : Parse Expr := do
  let l ← line
  expectOp "("
  if ← takeOp ")" then return .display l .tuple []
  if ← atWord "yield" then
    let e ← yieldExpression g
    expectOp ")"
    return e
  let first ← starNamed g
  if ← atClauses then
    let cs ← clausesFor g first
    expectOp ")"
    return .comprehension l .generator first cs
  if ← atOp "," then
    let items ← moreItems (starNamed g) first
    expectOp ")"
    return .display l .tuple items
  expectOp ")"
  match first with
  | .star sl _ => report sl
  | _ => return first

/-- What square brackets hold outside a subscript. -/
def listDisplay (g : Grammar) : Parse Expr := do
  let l ← line
  expectOp "["
  if ← takeOp "]" then return .display l .list []
  let first ← starNamed g
  if ← atClauses then
    let cs ← clausesFor g first
    expectOp "]"
    return .comprehension l .list first cs
  let items ← moreItems (starNamed g) first
  rejectClauses g first
  expectOp "]"
  return .display l .list items

/-- An item of a mapping. -/
def dictItem (g : Grammar) (isFirst : Bool) : Parse (Option Expr × Expr) := do
  let start ← line
  if ← takeOp "**" then
    let e ← g.bitOr
    return (none, e)
  let k ← g.expression
  let l ← line
  if !(← atOp ":") then
    if isFirst then unexpected else report start
  advance
  if (← atOp "\x7d") || (← atOp ",") then report l
  let v ← g.expression
  return (some k, v)

/-- The items of a mapping behind the first one. -/
def dictItems (g : Grammar) (l : Nat) (first : Option Expr × Expr) : Parse Expr := do
  let items ← loop (fun acc => do
    if ← atOp "," then
      advance
      if ← atOp "\x7d" then return none
      let item ← dictItem g false
      return some (item :: acc)
    return none) [first]
  expectOp "\x7d"
  return .dict l items.reverse

/-- What curly brackets hold. -/
def braced (g : Grammar) : Parse Expr := do
  let l ← line
  expectOp "\x7b"
  if ← takeOp "\x7d" then return .dict l []
  if ← atOp "**" then
    let starLine ← line
    let first ← dictItem g true
    if ← atClauses then
      discard (clauses g)
      report starLine
    dictItems g l first
  else
    let first ← starNamed g
    if ← atOp ":" then
      let colon ← line
      advance
      if (← atOp "\x7d") || (← atOp ",") then report colon
      let v ← g.expression
      match first with
      | .star sl _ => report sl
      | .bind bl _ _ _ => report bl
      | _ =>
        if ← atClauses then
          let cs ← clauses g
          expectOp "\x7d"
          return .dictComprehension l first v cs
        dictItems g l (some first, v)
    else if ← atClauses then
      let cs ← clausesFor g first
      expectOp "\x7d"
      return .comprehension l .set first cs
    else
      let items ← moreItems (starNamed g) first
      rejectClauses g first
      expectOp "\x7d"
      return .display l .set items

/-! ## Primaries -/

/-- The value of a number token. -/
def numberExpr (l : Nat) : Numeric → Parse Expr
  | .int n => return .constant l (.int n)
  | .float x => return .constant l (.float x)
  | .imaginary x => return .constant l (.imaginary x)
  | .tooLong => report l

/-- The smallest expressions. -/
def atom (g : Grammar) : Parse Expr := do
  let l ← line
  match ← peek with
  | .name id =>
    advance
    return .name l id
  | .keyword "True" =>
    advance
    return .constant l (.bool true)
  | .keyword "False" =>
    advance
    return .constant l (.bool false)
  | .keyword "None" =>
    advance
    return .constant l .none
  | .number n =>
    advance
    numberExpr l n
  | .string _ => strings g
  | .op "(" => parenthesised g
  | .op "[" => listDisplay g
  | .op "\x7b" => braced g
  | .op "..." =>
    advance
    return .constant l .ellipsis
  | _ => unexpected

/-- The arguments read so far, the last first, and whether named or unpacked named ones are among
them. -/
structure ArgState where
  args : List Argument
  named : Bool
  unpacked : Bool
  start : Nat

/-- Fails where a positional argument follows one that takes a name. -/
def rejectPositional {α : Type} (g : Grammar) : Parse α := do
  discard (moreItems (starNamed g) (.constant 0 .ellipsis))
  let l ← line
  report l

/-- One argument of a call. -/
def argument (g : Grammar) (s : ArgState) : Parse ArgState := do
  let l ← line
  match ← peek, ← peekSecond with
  | .op "*", _ =>
    if s.unpacked then report s.start
    advance
    let e ← g.expression
    return { s with args := .star e :: s.args }
  | .op "**", _ =>
    advance
    let e ← g.expression
    return { s with args := .doubleStar e :: s.args, unpacked := true }
  | .name id, .op "=" =>
    advance
    advance
    let e ← g.expression
    if ← atClauses then report l
    return { s with args := .named l id e :: s.args, named := true }
  | .name id, .op ":=" =>
    advance
    advance
    let e ← g.expression
    if s.named || s.unpacked then rejectPositional g
    return { s with args := .positional (.bind l id l e) :: s.args }
  | _, _ =>
    let e ← g.expression
    if ← atOp "=" then report l
    if ← atOp ":=" then report l
    if ← atClauses then
      let cs ← clauses g
      if s.args.isEmpty && (← atOp ")") then
        return { s with args := [.positional (.comprehension s.start .generator e cs)] }
      if s.args.isEmpty && !(← atOp ",") then unexpected
      report l
    if s.named || s.unpacked then rejectPositional g
    return { s with args := .positional e :: s.args }

/-- The arguments of a call and the bracket behind them; the bracket before them is on the given
line. -/
def arguments (g : Grammar) (start : Nat) : Parse (List Argument) := do
  if ← takeOp ")" then return []
  let first ← argument g ⟨[], false, false, start⟩
  let s ← loop (fun s => do
    if ← takeOp "," then
      if ← atOp ")" then return none
      let s ← argument g s
      return some s
    return none) first
  expectOp ")"
  return s.args.reverse

/-- An index or a slice. -/
def sliceItem (g : Grammar) : Parse Expr := do
  let l ← line
  let bound : Parse (Option Expr) := do
    if (← peek).startsExpression then
      let e ← g.expression
      return some e
    return none
  let tail (low : Option Expr) : Parse Expr := do
    expectOp ":"
    let high ← bound
    if ← takeOp ":" then
      let step ← bound
      return .slice l low high step
    return .slice l low high none
  if ← atOp ":" then tail none
  else if ← takeOp "*" then
    let e ← g.bitOr
    return .star l e
  else
    let e ← namedExpression g
    if ← atOp ":" then
      match e with
      | .bind _ _ _ _ => unexpected
      | _ => tail (some e)
    else return e

/-- What the square brackets of a subscript hold. -/
def subscriptIndex (g : Grammar) : Parse Expr := do
  let l ← line
  let first ← sliceItem g
  let isStar := match first with
    | .star _ _ => true
    | _ => false
  if isStar || (← atOp ",") then
    let items ← loop (fun acc => do
      if ← takeOp "," then
        if ← atOp "]" then return none
        let e ← sliceItem g
        return some (e :: acc)
      return none) [first]
    return .display l .tuple items.reverse
  return first

/-- A trailer of a primary: a member, a call or a subscript. -/
def trailer (g : Grammar) (l : Nat) (e : Expr) : Parse (Option Expr) := do
  match ← peek with
  | .op "." =>
    advance
    let idLine ← line
    let id ← name
    return some (.member l e id idLine)
  | .op "(" =>
    let start ← line
    advance
    let args ← arguments g start
    return some (.call l e args)
  | .op "[" =>
    advance
    let i ← subscriptIndex g
    expectOp "]"
    return some (.subscript l e i)
  | _ => return none

/-- An atom with its trailers. -/
def primary (g : Grammar) : Parse Expr := do
  let l ← line
  let e ← atom g
  loop (trailer g l) e

/-- A primary that may be awaited. -/
def awaited (g : Grammar) : Parse Expr := do
  let l ← line
  if ← takeWord "await" then
    let e ← primary g
    return .await l e
  primary g

/-- A signed power. -/
def factor (g : Grammar) : Parse Expr := do
  let l ← line
  let signed (op : UnaryOp) : Parse Expr := do
    advance
    let e ← g.factor
    return .unary l op e
  match ← peek with
  | .op "-" => signed .negate
  | .op "+" => signed .plus
  | .op "~" => signed .invert
  | _ =>
    let base ← awaited g
    if ← takeOp "**" then
      let e ← g.factor
      return .binary l .pow base e
    return base

end Stencil.Script
