import Stencil.Script.Parser.Expression

/-!
# Reading patterns

The patterns of a `match` statement: literals, names, dotted names, sequences, mappings, classes,
alternatives, and names given to whole patterns.
-/

namespace Stencil.Script

open Parse

/-- Further names behind dots. -/
def dotted (l : Nat) (e : Expr) : Parse Expr :=
  loop (fun e => do
    if ← takeOp "." then
      let idLine ← line
      let id ← name
      return some (.member l e id idLine)
    return none) e

/-- A number that a pattern may hold, with its sign, and a second, imaginary part. -/
def patternNumber : Parse Expr := do
  let l ← line
  let negative ← takeOp "-"
  match ← peek with
  | .number n =>
    advance
    let e ← numberExpr l n
    let e : Expr := if negative then .unary l .negate e else e
    let plus ← atOp "+"
    if plus || (← atOp "-") then
      advance
      match ← peek with
      | .number (.imaginary x) =>
        let l' ← line
        advance
        return .binary l (if plus then .add else .sub) e (.constant l' (.imaginary x))
      | _ => unexpected
    return e
  | _ => unexpected

/-- The name that a pattern binds; the underscore binds none. -/
def captureName : Parse (Option String) := do
  let id ← name
  return if id == "_" then none else some id

/-- One item of a sequence pattern. -/
def patternItem (g : Grammar) : Parse Pattern := do
  let l ← line
  if ← takeOp "*" then
    let id ← captureName
    return .star l id
  g.pattern

/-- The items of a sequence pattern up to the mark that ends it, and whether a comma was among them. -/
def patternItems (g : Grammar) (ending : String) : Parse (List Pattern × Bool) := do
  if ← atOp ending then return ([], false)
  let first ← patternItem g
  let (items, comma) ← loop (fun (acc, comma) => do
    if ← takeOp "," then
      if ← atOp ending then return some (acc, true)
      let p ← patternItem g
      return some (p :: acc, true)
    if comma then return none
    return none) ([first], false)
  return (items.reverse, comma)

/-- An item of a mapping pattern: a literal or dotted name and the pattern for its value. -/
def mappingItem (g : Grammar) : Parse (Expr × Pattern) := do
  let l ← line
  let key ← match ← peek with
    | .name id => do
      advance
      let e ← dotted l (.name l id)
      match e with
      | .name _ _ => unexpected
      | _ => pure e
    | .string _ => strings g
    | .keyword "None" => advance; pure (.constant l .none)
    | .keyword "True" => advance; pure (.constant l (.bool true))
    | .keyword "False" => advance; pure (.constant l (.bool false))
    | _ => patternNumber
  expectOp ":"
  let p ← g.pattern
  return (key, p)

/-- A mapping pattern. -/
def mappingPattern (g : Grammar) : Parse Pattern := do
  let l ← line
  expectOp "\x7b"
  let rec item (acc : List (Expr × Pattern) × Option String) :
      Parse (List (Expr × Pattern) × Option String) := do
    if acc.2.isSome then unexpected
    if ← takeOp "**" then
      let id ← name
      if id == "_" then unexpected
      return (acc.1, some id)
    let i ← mappingItem g
    return (i :: acc.1, none)
  if ← takeOp "\x7d" then return .mapping l [] none
  let first ← item ([], none)
  let (items, rest) ← loop (fun acc => do
    if ← takeOp "," then
      if ← atOp "\x7d" then return none
      let acc ← item acc
      return some acc
    return none) first
  expectOp "\x7d"
  return .mapping l items.reverse rest

/-- The arguments of a class pattern, the last first: those by position and those by name. -/
def classArgument (g : Grammar) (acc : List Pattern × List (String × Pattern)) (start : Nat) :
    Parse (List Pattern × List (String × Pattern)) := do
  match ← peek, ← peekSecond with
  | .name id, .op "=" =>
    advance
    advance
    let p ← g.pattern
    return (acc.1, (id, p) :: acc.2)
  | _, _ =>
    let p ← g.pattern
    if acc.2.isEmpty then return (p :: acc.1, acc.2)
    report start

/-- A class pattern behind its class. -/
def classPattern (g : Grammar) (l : Nat) (callee : Expr) : Parse Pattern := do
  expectOp "("
  if ← takeOp ")" then return .ofClass l callee [] []
  let start ← line
  let first ← classArgument g ([], []) start
  let (items, namedItems) ← loop (fun acc => do
    if ← takeOp "," then
      if ← atOp ")" then return none
      let acc ← classArgument g acc start
      return some acc
    return none) first
  expectOp ")"
  return .ofClass l callee items.reverse namedItems.reverse

/-- A pattern without alternatives. -/
def closedPattern (g : Grammar) : Parse Pattern := do
  let l ← line
  match ← peek with
  | .number _ | .op "-" => do
    let e ← patternNumber
    return .value l e
  | .string _ => do
    let e ← strings g
    return .value l e
  | .keyword "None" => do
    advance
    return .singleton l .none
  | .keyword "True" => do
    advance
    return .singleton l (.bool true)
  | .keyword "False" => do
    advance
    return .singleton l (.bool false)
  | .op "(" => do
    advance
    let (items, comma) ← patternItems g ")"
    expectOp ")"
    match items, comma with
    | [p], false =>
      match p with
      | .star _ _ => unexpected
      | _ => return p
    | _, _ => return .sequence l items
  | .op "[" => do
    advance
    let (items, _) ← patternItems g "]"
    expectOp "]"
    return .sequence l items
  | .op "\x7b" => mappingPattern g
  | .name id => do
    advance
    let e ← dotted l (.name l id)
    if ← atOp "(" then classPattern g l e
    else
      match e with
      | .name _ _ => return if id == "_" then .wildcard l else .capture l id
      | _ => return .value l e
  | _ => unexpected

/-- A pattern: alternatives, which may be given a name. -/
def pattern (g : Grammar) : Parse Pattern := do
  let l ← line
  let first ← closedPattern g
  let more ← loop (fun acc => do
    if ← takeOp "|" then
      let p ← closedPattern g
      return some (p :: acc)
    return none) [first]
  let p : Pattern := if more.length = 1 then first else .either l more.reverse
  if ← takeWord "as" then
    let idLine ← line
    match ← peek with
    | .name id =>
      if id == "_" then report idLine
      advance
      return .named l p id
    | _ => unexpected
  return p

/-- The pattern of a case, where a sequence needs no brackets. -/
def openPattern (g : Grammar) : Parse Pattern := do
  let l ← line
  let first ← patternItem g
  let isStar := match first with
    | .star _ _ => true
    | _ => false
  if ← atOp "," then
    let items ← loop (fun acc => do
      if ← takeOp "," then
        if (← atOp ":") || (← atWord "if") then return none
        let p ← patternItem g
        return some (p :: acc)
      return none) [first]
    return .sequence l items.reverse
  if isStar then unexpected
  return first

end Stencil.Script
