import Stencil.Script.Eval

/-!
# Class statements

The body of a class runs in a namespace of its own, which becomes the members of the class. The order in
which members are looked up in the classes behind it keeps every class before those it belongs to.
-/

namespace Stencil.Script.Class

/-- The first head of several lists that is in the tail of none of them. -/
def nextHead? (lists : List (List Value)) : List (List Value) → Option Value
  | [] => none
  | [] :: rest => nextHead? lists rest
  | (h :: _) :: rest =>
    if lists.any fun l => (l.drop 1).any (·.same h) then nextHead? lists rest else some h

/-- Merges lists of classes so that the order of each is kept, if that is possible. -/
def merge : Nat → List (List Value) → Option (List Value)
  | 0, _ => none
  | n + 1, lists =>
    let lists := lists.filter (!·.isEmpty)
    if lists.isEmpty then some []
    else
      match nextHead? lists lists with
      | none => none
      | some h =>
        let rest := lists.map fun l =>
          match l with
          | x :: r => if x.same h then r else l
          | [] => []
        (merge n rest).map (h :: ·)

/-- The names of classes in a message. -/
def namesOf (classes : List Value) : Run String := do
  return String.intercalate ", " (← classes.mapM Run.nameOf)

/-- The lineage of the classes behind a new class. -/
def lineageOf (bases : List Value) : Run (List Value) := do
  let lines ← bases.mapM Run.lineage
  let size := lines.foldl (fun n l => n + l.length) 1
  match merge size (lines ++ [bases]) with
  | some line => return line
  | none =>
    Run.typeError ("Cannot create a consistent method resolution\norder (MRO) for bases " ++
      (← namesOf bases))

/-- The name of the hidden variable that holds the class for its methods. -/
def hiddenName : String := "__class__"

/-- The members that a dictionary holds. -/
def membersOf (es : Entries) : Members :=
  es.filterMap fun
    | (.str name, v) => some (name, v)
    | _ => none

/-- The members that a namespace of a class body holds. -/
def membersIn (a : Address) : Run Members := do
  match ← Run.object? a with
  | some (.space names) => return names
  | some (.handedOut d) => return membersOf (← Run.entries d)
  | _ => return []

/-- Makes a class of a name, the classes behind it, and a body. -/
def define (ops : Ops) (env : Env) (name : String) (bases : List Value) (body : List Stmt) :
    Run Value := do
  let bases := if bases.isEmpty then [.kind .object] else bases
  let line ← lineageOf bases
  let space ← Run.alloc (.space [])
  let cell ← Run.alloc (.cell none)
  match space, cell with
  | .ref a, .ref c =>
    let inner : Env := {
      visible := ⟨hiddenName, c, false⟩ :: Scope.captured env
      globalNames := Scope.globalsOf (Scope.usesOfBody [] body)
      namespaceAt := some a
      path := env.path ++ name ++ "." }
    let _ ← Run.nested (ops.resume inner .proceed [.run body])
    let members ← membersIn a
    let cls ← Run.alloc (.cls ⟨name, env.path ++ name, bases, [], members⟩)
    match cls with
    | .ref k => Run.store k (.cls ⟨name, env.path ++ name, bases, cls :: line, members⟩)
    | _ => pure ()
    Run.store c (.cell (some cls))
    return cls
  | _, _ => return .none

end Stencil.Script.Class
