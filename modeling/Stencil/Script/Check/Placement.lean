import Stencil.Script.Tree

/-!
# Where statements and expressions may stand

Checks that `return`, `yield`, `await`, `break` and `continue` stand where they mean something, that
unpacked expressions stand in lists, that blocks do not nest too deeply, and that the cases of a
`match` statement can all be reached.
-/

namespace Stencil.Script

/-- The blocks that have to be left in order. -/
inductive BlockKind where
  | loop | groupHandler | other
  deriving DecidableEq

/-- The place of a node: within a function or not, within an asynchronous one, directly within a
comprehension, and the open blocks, the innermost first. -/
structure Place where
  function : Bool
  awaited : Bool
  comprehension : Bool
  blocks : List BlockKind

/-- The outermost place of a script. -/
def Place.script : Place := ⟨false, false, false, []⟩

/-- The most blocks that may be open at once. -/
def maxBlocks : Nat := 20

/-- A check that keeps the line of the last statement, and ends at the line at fault. -/
abbrev Check := StateT Nat (Except Nat)

/-- The line at fault is the given one. -/
def Check.fail {α : Type} (line : Nat) : Check α :=
  throw line

/-- Checks within one more open block. -/
def Place.enter (p : Place) (kind : BlockKind) : Check Place := do
  if maxBlocks ≤ p.blocks.length then Check.fail (← get)
  return { p with blocks := kind :: p.blocks }

/-- Runs a check of a separate function or class, after which the line is as before. -/
def Check.apart (body : Check Unit) : Check Unit := do
  let l ← get
  body
  set l

/-- The name that cannot be bound. -/
def fixedName : String := "__debug__"

/-- Whether awaiting belongs to the scope of an expression, by nesting depth at most the fuel. -/
def awaits : Nat → Expr → Bool
  | 0, _ => false
  | n + 1, e =>
    match e with
    | .await _ _ => true
    | .lambda _ ps _ => (ps.filterMap Param.default).any (awaits n)
    | .comprehension _ kind element clauses =>
      e.parts.any (awaits n) || (kind ≠ .generator && (awaits n element || clausesAwait n clauses))
    | .dictComprehension _ k v clauses =>
      e.parts.any (awaits n) || awaits n k || awaits n v || clausesAwait n clauses
    | _ => e.parts.any (awaits n)
where
  /-- Whether the clauses of a comprehension await, the first source aside. -/
  clausesAwait (n : Nat) : List Clause → Bool
    | [] => false
    | .mk _ aw target _ conditions :: rest =>
      aw || awaits n target || conditions.any (awaits n) ||
        rest.any fun
          | .mk _ aw target source conditions =>
            aw || awaits n target || awaits n source || conditions.any (awaits n)

/-- The line of the first name that is given to two arguments. -/
def repeatedName? : List String → List Argument → Option Nat
  | _, [] => none
  | seen, .named l id _ :: r => if seen.contains id then some l else repeatedName? (id :: seen) r
  | seen, _ :: r => repeatedName? seen r

/-- Checks an expression, which is a target or is evaluated. -/
def checkExpr : Nat → Place → Bool → Expr → Check Unit
  | 0, _, _, _ => return ()
  | n + 1, p, isTarget, e => do
    let comprehension (l : Nat) (generator : Bool) (elements : List Expr) (clauses : List Clause) :
        Check Unit := do
      let asynchronous := elements.any (awaits n) || awaits.clausesAwait n clauses
      if asynchronous && !generator && !p.awaited && !p.comprehension then Check.fail l
      let inner : Place := ⟨true, false, true, []⟩
      match clauses with
      | [] => return ()
      | .mk _ _ target source conditions :: rest =>
        checkExpr n inner true target
        conditions.forM (checkExpr n inner false)
        rest.forM fun
          | .mk _ _ target source conditions => do
            checkExpr n inner false source
            checkExpr n inner true target
            conditions.forM (checkExpr n inner false)
        elements.forM (checkExpr n inner false)
        checkExpr n p false source
    match e with
    | .name l id => if isTarget && id == fixedName then Check.fail l
    | .star l _ => Check.fail l
    | .display l _ items =>
      let isStar : Expr → Bool
        | .star _ _ => true
        | _ => false
      if isTarget && 1 < (items.filter isStar).length then Check.fail l
      items.forM fun
        | .star _ inner => checkExpr n p isTarget inner
        | item => checkExpr n p isTarget item
    | .member l o id _ =>
      checkExpr n p false o
      if isTarget && id == fixedName then Check.fail l
    | .call _ f args =>
      checkExpr n p false f
      match repeatedName? [] args with
      | some l => Check.fail l
      | none => args.forM fun a => checkExpr n p false a.value
    | .lambda _ ps body =>
      (defaultValues ps).forM (checkExpr n p false)
      match ps.find? (·.id == fixedName) with
      | some q => Check.fail q.line
      | none => checkExpr n ⟨true, false, false, []⟩ false body
    | .comprehension l kind element clauses =>
      comprehension l (kind == .generator) [element] clauses
    | .dictComprehension l k v clauses => comprehension l false [k, v] clauses
    | .yieldValue l v =>
      if !p.function then Check.fail l
      v.forM (checkExpr n p false)
    | .yieldFrom l v =>
      if !p.function || p.awaited then Check.fail l
      checkExpr n p false v
    | .await l v =>
      if !p.function || !(p.awaited || p.comprehension) then Check.fail l
      checkExpr n p false v
    | _ => e.parts.forM (checkExpr n p false)

/-! ## Patterns -/

/-- Checks a pattern. `last` holds where nothing is tried after it, so that it may match everything.
The result is the names bound so far. -/
def checkPattern : Nat → Bool → List String → Pattern → Except Nat (List String)
  | 0, _, names, _ => .ok names
  | n + 1, last, names, p =>
    let bind (l : Nat) (id : String) (names : List String) : Except Nat (List String) :=
      if names.contains id then .error l else .ok (id :: names)
    match p with
    | .value _ _ | .singleton _ _ => .ok names
    | .wildcard l => if last then .ok names else .error l
    | .capture l id => if last then bind l id names else .error l
    | .named l inner id => do bind l id (← checkPattern n last names inner)
    | .star l id =>
      match id with
      | some id => bind l id names
      | none => .ok names
    | .sequence l items =>
      let isStar : Pattern → Bool
        | .star _ _ => true
        | _ => false
      if 1 < (items.filter isStar).length then .error l
      else items.foldlM (checkPattern n true) names
    | .mapping l items rest => do
      let names ← items.foldlM (fun names i => checkPattern n true names i.2) names
      match rest with
      | some id => bind l id names
      | none => return names
    | .ofClass _ _ items named => do
      let ids := named.map (·.1)
      let repeated := (named.zipIdx).find? fun (i, k) => (ids.take k).contains i.1
      match repeated with
      | some (i, _) => throw i.2.line
      | none =>
        let names ← items.foldlM (checkPattern n true) names
        named.foldlM (fun names i => checkPattern n true names i.2) names
    | .either l items => do
      let count := items.length
      let sets ← items.zipIdx.mapM fun (q, k) => do
        let ids ← checkPattern n (last && k + 1 == count) [] q
        return (q.line, ids)
      match sets with
      | [] => return names
      | (_, first) :: rest =>
        match rest.find? fun (_, ids) => !(ids.length == first.length && ids.all first.contains) with
        | some (l', _) => throw l'
        | none => first.foldlM (fun names id => bind l id names) names

/-! ## Statements -/

/-- The line of the first open handler of exception groups that a jump would leave, or the fault of a
jump without a loop around it. -/
def checkJump (line : Nat) (needsLoop : Bool) : List BlockKind → Check Unit
  | [] => if needsLoop then Check.fail line else return ()
  | .groupHandler :: _ => Check.fail line
  | .loop :: rest => if needsLoop then return () else checkJump line needsLoop rest
  | .other :: rest => checkJump line needsLoop rest

/-- Whether a pattern is the lone underscore. -/
def Pattern.isWildcard : Pattern → Bool
  | .wildcard _ => true
  | _ => false

/-- Checks a statement. -/
def checkStmt : Nat → Place → Stmt → Check Unit
  | 0, _, _ => return ()
  | n + 1, p, s => do
    set s.line
    let body (p : Place) (ss : List Stmt) : Check Unit := ss.forM (checkStmt n p)
    match s with
    | .expr _ e => checkExpr n p false e
    | .assign _ targets value =>
      checkExpr n p false value
      targets.forM (checkExpr n p true)
    | .augment _ target _ value =>
      checkExpr n p true target
      checkExpr n p false value
    | .declare _ target hint value bare =>
      value.forM (checkExpr n p false)
      checkExpr n p true target
      if !(bare && p.function) then checkExpr n p false hint
    | .delete _ targets => targets.forM (checkExpr n p true)
    | .pass _ | .global _ _ | .nonlocal _ _ | .importModule _ _ | .importFrom _ _ _ _ => return ()
    | .breakLoop l | .continueLoop l => checkJump l true p.blocks
    | .ret l v =>
      if !p.function then Check.fail l
      v.forM (checkExpr n p false)
      checkJump l false p.blocks
    | .raise _ v c =>
      v.forM (checkExpr n p false)
      c.forM (checkExpr n p false)
    | .assert _ t m =>
      checkExpr n p false t
      m.forM (checkExpr n p false)
    | .ifElse _ t b o =>
      checkExpr n p false t
      body p b
      body p o
    | .whileLoop _ t b o =>
      let inner ← p.enter .loop
      checkExpr n p false t
      body inner b
      body p o
    | .forLoop l aw t source b o =>
      if aw && !p.awaited then Check.fail l
      let inner ← p.enter .loop
      checkExpr n p false source
      checkExpr n p true t
      body inner b
      body p o
    | .withBlock l aw items b =>
      if aw && !p.awaited then Check.fail l
      let inner ← items.foldlM (fun p i => do
        checkExpr n p false i.1
        set l
        let inner ← p.enter .other
        i.2.forM (checkExpr n inner true)
        return inner) p
      body inner b
    | .tryBlock _ grouped b handlers o f =>
      let outer ← if f.isEmpty then pure p else p.enter .other
      if handlers.isEmpty then body outer b
      else
        let inner ← outer.enter .other
        body inner b
        body outer o
        let handling ← outer.enter (if grouped then .groupHandler else .other)
        let count := handlers.length
        handlers.zipIdx.forM fun
          | (.mk l kind _ hb, k) => do
            set l
            if kind.isNone && k + 1 < count then Check.fail l
            kind.forM (checkExpr n handling false)
            let inner ← handling.enter .other
            body inner hb
      if !f.isEmpty then
        let inner ← p.enter .other
        body inner f
    | .function _ aw decorators _ ps result b =>
      decorators.forM (checkExpr n p false)
      (defaultValues ps).forM (checkExpr n p false)
      (ps.filterMap Param.hint).forM fun
        | .star _ inner => checkExpr n p false inner
        | h => checkExpr n p false h
      result.forM (checkExpr n p false)
      match ps.find? (·.id == fixedName) with
      | some q => Check.fail q.line
      | none => Check.apart (body ⟨true, aw, false, []⟩ b)
    | .classDef _ decorators _ args b =>
      decorators.forM (checkExpr n p false)
      Check.apart (body ⟨false, false, false, []⟩ b)
      match repeatedName? [] args with
      | some l => Check.fail l
      | none =>
        args.forM fun a => checkExpr n p false a.value
    | .matchCases _ subject cases =>
      checkExpr n p false subject
      let count := cases.length
      cases.zipIdx.forM fun
        | (.mk pattern guard b, k) => do
          if !(pattern.isWildcard && k + 1 == count && 1 < count) then
            match checkPattern n (guard.isSome || k + 1 == count) [] pattern with
            | .error l => Check.fail l
            | .ok _ => pure ()
          guard.forM (checkExpr n p false)
          body p b

/-! ## Imports from the future -/

/-- The features that may be asked for. -/
def futureFeatures : List String :=
  ["nested_scopes", "generators", "division", "absolute_import", "with_statement", "print_function",
   "unicode_literals", "barry_as_FLUFL", "generator_stop", "annotations"]

/-- Whether a statement is a string that stands for itself. -/
def isDocString : Stmt → Bool
  | .expr _ (.constant _ (.str _)) => true
  | _ => false

/-- Requests for features stand in front of all other statements and name known features. -/
def checkFuture (first : Bool) : List Stmt → Except Nat Unit
  | [] => .ok ()
  | s :: rest =>
    match s with
    | .importFrom l _ (some "__future__") names =>
      if !first then .error l
      else if ((names.getD [⟨"*", none⟩]).all fun a => futureFeatures.contains a.path) then
        checkFuture first rest
      else .error l
    | _ => checkFuture (first && isDocString s) rest

/-- Checks the statements of a script whose trees are at most as high as the given bound. -/
def checkPlacement (height : Nat) (body : List Stmt) : Except Nat Unit := do
  let _ ← (body.forM (checkStmt height Place.script)).run 0
  return ()

end Stencil.Script
