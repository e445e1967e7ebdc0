import Stencil.Script.Tree

/-!
# Names and the scopes that hold them

A script is walked in the order in which it is written, and for each module, function, class and
comprehension it is noted how its names are used. Declarations that contradict an earlier use are at
fault where they stand; a declaration of an enclosing function's name is at fault when no enclosing
function binds the name.
-/

namespace Stencil.Script

/-- The kinds of scope. -/
inductive ScopeKind where
  | script | function | classBody
  deriving DecidableEq

/-- How a name is used in a scope. -/
structure NameUse where
  id : String
  read : Bool := false
  bound : Bool := false
  parameter : Bool := false
  hinted : Bool := false
  global : Bool := false
  nonlocal : Bool := false
  iterated : Bool := false

/-- A scope under construction, or finished. The children are finished scopes, the last first. -/
inductive Scope where
  | mk (kind : ScopeKind) (comprehension : Bool) (names : List NameUse)
      (declared : List (String × Nat)) (sources : Nat) (inTarget : Bool) (children : List Scope)

namespace Scope

/-- An empty scope. -/
def empty (kind : ScopeKind) (comprehension : Bool) : Scope :=
  mk kind comprehension [] [] 0 false []

/-- The kind of a scope. -/
def kind : Scope → ScopeKind
  | mk k _ _ _ _ _ _ => k

/-- Whether a scope belongs to a comprehension. -/
def comprehension : Scope → Bool
  | mk _ c _ _ _ _ _ => c

/-- The uses of names, the last new name first. -/
def names : Scope → List NameUse
  | mk _ _ n _ _ _ _ => n

/-- How a name has been used so far. -/
def use (s : Scope) (id : String) : NameUse :=
  (s.names.find? (·.id == id)).getD { id }

/-- Changes the use of a name. -/
def update (s : Scope) (id : String) (f : NameUse → NameUse) : Scope :=
  match s with
  | mk k c ns d n t ch =>
    if ns.any (·.id == id) then
      mk k c (ns.map fun u => if u.id == id then f u else u) d n t ch
    else mk k c (f { id } :: ns) d n t ch

end Scope

/-- A walk over a script: the open scopes, the innermost first, or the line at fault. -/
abbrev Walk := StateT (List Scope) (Except Nat)

namespace Walk

/-- The innermost scope. -/
def current : Walk Scope := do
  return (← get).headD (Scope.empty .script false)

/-- Changes the innermost scope. -/
def change (f : Scope → Scope) : Walk Unit :=
  modify fun
    | s :: rest => f s :: rest
    | [] => []

/-- Walks within a new scope, which becomes the last child of the scope around it. -/
def within (s : Scope) (body : Walk Unit) : Walk Unit := do
  modify (s :: ·)
  body
  modify fun
    | s :: .mk k c ns d n t ch :: rest => .mk k c ns d n t (s :: ch) :: rest
    | ss => ss

/-- Notes that a name is read. -/
def read (id : String) : Walk Unit :=
  change (·.update id ({ · with read := true }))

/-- Notes that a name is bound. The variables of a comprehension must not be names that an assignment
within it binds. -/
def bind (id : String) (line : Nat) : Walk Unit := do
  match ← current with
  | s@(.mk _ _ _ _ _ inTarget _) =>
    let u := s.use id
    if inTarget && (u.global || u.nonlocal) then throw line
    change (·.update id fun u => { u with bound := true, iterated := u.iterated || inTarget })

/-- Notes a parameter, which must not be there already. -/
def parameter (id : String) (line : Nat) : Walk Unit := do
  if ((← current).use id).parameter then throw line
  change (·.update id ({ · with parameter := true }))

/-- Notes the line of a declaration. -/
def declare (id : String) (line : Nat) : Walk Unit :=
  change fun
    | .mk k c ns d n t ch => .mk k c ns ((id, line) :: d) n t ch

/-- Walks over the source of a comprehension's items, where no assignment may stand. -/
def source (body : Walk Unit) : Walk Unit := do
  change fun
    | .mk k c ns d n t ch => .mk k c ns d (n + 1) t ch
  body
  change fun
    | .mk k c ns d n t ch => .mk k c ns d (n - 1) t ch

/-- Walks over the target of a comprehension's items. -/
def target (body : Walk Unit) : Walk Unit := do
  change fun
    | .mk k c ns d n _ ch => .mk k c ns d n true ch
  body
  change fun
    | .mk k c ns d n _ ch => .mk k c ns d n false ch

end Walk

/-- Binds the name of an assignment within comprehensions in the scope around them: `inner` are the open
scopes from the innermost on. The result is the scopes, and whether the name belongs to the script. -/
def bindOutside (id : String) (line : Nat) : List Scope → Except Nat (List Scope × Bool)
  | [] => .ok ([], true)
  | s :: rest =>
    if s.comprehension then
      if (s.use id).iterated then .error line
      else do
        let (rest, global) ← bindOutside id line rest
        return (s :: rest, global)
    else
      match s.kind with
      | .function =>
        let global := (s.use id).global
        .ok (s.update id ({ · with bound := true }) :: rest, global)
      | .script => .ok (s.update id ({ · with global := true }) :: rest, true)
      | .classBody => .error line

/-- An assignment within an expression. -/
def walkBind (id : String) (line idLine : Nat) (value : Walk Unit) : Walk Unit := do
  match ← Walk.current with
  | .mk _ comprehension _ _ sources _ _ =>
    if 0 < sources then throw line
    if comprehension then
      let scopes ← get
      match bindOutside id line scopes with
      | .error l => throw l
      | .ok (scopes, global) =>
        set scopes
        Walk.change (·.update id fun u =>
          if global then { u with global := true } else { u with nonlocal := true })
        Walk.declare id line
    value
    Walk.bind id idLine

/-- Walks over a comprehension: the first source in the scope around it, all else in its own. The
expressions are walked over by the given walk, which is told whether they are targets. -/
def walkComprehension (walk : Bool → Expr → Walk Unit) (elements : List Expr) :
    List Clause → Walk Unit
  | [] => return ()
  | .mk _ _ target source conditions :: rest => do
    Walk.source (walk false source)
    Walk.within (Scope.empty .function true) do
      Walk.target (walk true target)
      conditions.forM (walk false)
      rest.forM fun
        | .mk _ _ target source conditions => do
          Walk.target (walk true target)
          Walk.source (walk false source)
          conditions.forM (walk false)
      elements.forM (walk false)

/-- Walks over an expression, which is a target or is read. -/
def walkExpr : Nat → Bool → Expr → Walk Unit
  | 0, _, _ => return ()
  | n + 1, isTarget, e => do
    match e with
    | .name l id => if isTarget then Walk.bind id l else Walk.read id
    | .display _ _ items => items.forM (walkExpr n isTarget)
    | .star _ inner => walkExpr n isTarget inner
    | .bind l id idLine v => walkBind id l idLine (walkExpr n false v)
    | .lambda _ ps body =>
      (defaultValues ps).forM (walkExpr n false)
      Walk.within (Scope.empty .function false) do
        ps.forM fun p => Walk.parameter p.id p.line
        walkExpr n false body
    | .comprehension _ _ element clauses => walkComprehension (walkExpr n) [element] clauses
    | .dictComprehension _ key value clauses =>
      walkComprehension (walkExpr n) [value, key] clauses
    | .yieldValue l v =>
      v.forM (walkExpr n false)
      if (← Walk.current).comprehension then throw l
    | .yieldFrom l v =>
      walkExpr n false v
      if (← Walk.current).comprehension then throw l
    | _ => e.parts.forM (walkExpr n false)

/-- Walks over a pattern, which binds names. -/
def walkPattern : Nat → Pattern → Walk Unit
  | 0, _ => return ()
  | n + 1, p => do
    match p with
    | .value _ e => walkExpr n false e
    | .singleton _ _ | .wildcard _ => return ()
    | .capture l id => Walk.bind id l
    | .sequence _ items | .either _ items => items.forM (walkPattern n)
    | .star l id => id.forM (Walk.bind · l)
    | .mapping l items rest =>
      items.forM fun i => walkExpr n false i.1
      items.forM fun i => walkPattern n i.2
      rest.forM (Walk.bind · l)
    | .ofClass _ callee items named =>
      walkExpr n false callee
      items.forM (walkPattern n)
      named.forM fun i => walkPattern n i.2
    | .named l inner id =>
      walkPattern n inner
      Walk.bind id l

/-- A declaration of names that live elsewhere. A name that the scope has used already is at fault. -/
def walkDeclaration (line : Nat) (ids : List String) (mark : NameUse → NameUse) : Walk Unit :=
  ids.forM fun id => do
    let u := (← Walk.current).use id
    if u.parameter || u.bound || u.read || u.hinted then throw line
    Walk.change (·.update id mark)
    Walk.declare id line

/-- The name that an imported path binds. -/
def Alias.bound (a : Alias) : String :=
  a.name.getD (String.ofList (a.path.toList.takeWhile (· ≠ '.')))

/-- Walks over a statement. -/
def walkStmt : Nat → Stmt → Walk Unit
  | 0, _ => return ()
  | n + 1, s => do
    let body (ss : List Stmt) : Walk Unit := ss.forM (walkStmt n)
    match s with
    | .expr _ e => walkExpr n false e
    | .assign _ targets value =>
      targets.forM (walkExpr n true)
      walkExpr n false value
    | .augment _ target _ value =>
      walkExpr n true target
      walkExpr n false value
    | .declare l target hint value bare =>
      match target with
      | .name _ id =>
        let u := (← Walk.current).use id
        if bare && (u.global || u.nonlocal) && (← Walk.current).kind ≠ .script then throw l
        if bare then
          Walk.change (·.update id ({ · with hinted := true, bound := true }))
        else if value.isSome then Walk.bind id l
      | _ => walkExpr n true target
      walkExpr n false hint
      value.forM (walkExpr n false)
    | .delete _ targets => targets.forM (walkExpr n true)
    | .pass _ | .breakLoop _ | .continueLoop _ => return ()
    | .ret _ v => v.forM (walkExpr n false)
    | .raise _ v c =>
      v.forM (walkExpr n false)
      c.forM (walkExpr n false)
    | .assert _ t m =>
      walkExpr n false t
      m.forM (walkExpr n false)
    | .importModule l names => names.forM fun a => Walk.bind a.bound l
    | .importFrom l _ _ names =>
      match names with
      | some as => as.forM fun a => Walk.bind (a.name.getD a.path) l
      | none => if (← Walk.current).kind ≠ .script then throw l
    | .global l ids => walkDeclaration l ids ({ · with global := true })
    | .nonlocal l ids => walkDeclaration l ids ({ · with nonlocal := true })
    | .ifElse _ t b o =>
      walkExpr n false t
      body b
      body o
    | .whileLoop _ t b o =>
      walkExpr n false t
      body b
      body o
    | .forLoop _ _ t source b o =>
      walkExpr n true t
      walkExpr n false source
      body b
      body o
    | .withBlock _ _ items b =>
      items.forM fun i => do
        walkExpr n false i.1
        i.2.forM (walkExpr n true)
      body b
    | .tryBlock _ _ b handlers o f =>
      body b
      body o
      handlers.forM fun
        | .mk l kind id hb => do
          kind.forM (walkExpr n false)
          id.forM (Walk.bind · l)
          body hb
      body f
    | .function l _ decorators id ps result b =>
      Walk.bind id l
      (defaultValues ps).forM (walkExpr n false)
      (ps.filterMap Param.hint).forM (walkExpr n false)
      result.forM (walkExpr n false)
      decorators.forM (walkExpr n false)
      Walk.within (Scope.empty .function false) do
        ps.forM fun p => Walk.parameter p.id p.line
        body b
    | .classDef l decorators id args b =>
      Walk.bind id l
      args.forM fun a => walkExpr n false a.value
      decorators.forM (walkExpr n false)
      Walk.within (Scope.empty .classBody false) (body b)
    | .matchCases _ subject cases =>
      walkExpr n false subject
      cases.forM fun
        | .mk p guard b => do
          walkPattern n p
          guard.forM (walkExpr n false)
          body b

/-- Checks the declarations of a finished scope and those within it: `outer` are the names that the
enclosing functions bind, if there is an enclosing scope at all. -/
def Scope.resolve : Nat → Option (List String) → Scope → Except Nat Unit
  | 0, _, _ => .ok ()
  | n + 1, outer, .mk kind _ names declared _ _ children => do
    let line (id : String) : Nat := ((declared.reverse.find? (·.1 == id)).map (·.2)).getD 0
    names.reverse.forM fun u => do
      if u.global && u.nonlocal then throw (line u.id)
      if u.nonlocal then
        match outer with
        | none => throw (line u.id)
        | some ids => if !ids.contains u.id then throw (line u.id)
    let globals := (names.filter (·.global)).map (·.id)
    let kept := (outer.getD []).filter (!globals.contains ·)
    let own := (names.filter fun u => (u.bound || u.parameter) && !u.global && !u.nonlocal).map (·.id)
    let inner := match kind with
      | .function => own ++ kept
      | .script => []
      | .classBody => "__class__" :: outer.getD []
    children.reverse.forM (Scope.resolve n (some inner))

/-- Checks the names of a script whose trees are at most as high as the given bound. -/
def checkNames (height : Nat) (body : List Stmt) : Except Nat Unit := do
  let (_, scopes) ← (body.forM (walkStmt height)).run [Scope.empty .script false]
  scopes.forM (Scope.resolve height none)

end Stencil.Script
