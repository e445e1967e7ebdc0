import Stencil.Script.Eval

/-!
# Assignment

A value is assigned to a name, a member or an item, or it is unpacked into several targets, one of which
may take what the others leave.
-/

namespace Stencil.Script.Assign

/-- The iterator of a value that is unpacked into targets. -/
def unpackable (ops : Ops) (v : Value) : Run Value :=
  Run.catching (Iterate.start ops v) fun e => do
    if ← Run.isException e .typeError then
      Run.typeError s!"cannot unpack non-iterable {← Run.kindName v} object"
    else throw (.raised e)

/-- The first items that an iterator gives, at most a number of them. -/
def takeItems (ops : Ops) (iterator : Value) : Nat → Run (List Value)
  | 0 => return []
  | n + 1 => do
    match ← ops.advance iterator .none with
    | .item v => return v :: (← takeItems ops iterator n)
    | .done _ => return []

/-- The values for targets of which none takes a rest. -/
def exactly (ops : Ops) (v : Value) (count : Nat) : Run (List Value) := do
  let iterator ← unpackable ops v
  let items ← takeItems ops iterator (count + 1)
  if items.length < count then
    Run.valueError s!"not enough values to unpack (expected {count}, got {items.length})"
  else if count < items.length then
    Run.valueError s!"too many values to unpack (expected {count})"
  else return items

/-- The values for targets of which one takes the rest, with a number of targets before and behind
it. -/
def withRest (ops : Ops) (v : Value) (before behind : Nat) : Run (List Value) := do
  let iterator ← unpackable ops v
  let items := (← ops.drain iterator).toList
  let least := before + behind
  if items.length < least then
    Run.valueError s!"not enough values to unpack (expected at least {least}, got {items.length})"
  else
    let rest ← Run.newList ((items.drop before).take (items.length - least))
    return items.take before ++ rest :: items.drop (items.length - behind)

/-- Whether a target takes a rest. -/
def takesRest : Expr → Bool
  | .star _ _ => true
  | _ => false

/-- The values that targets get from a value, one for each. -/
def distribute (ops : Ops) (v : Value) (targets : List Expr) : Run (List Value) :=
  match targets.findIdx? takesRest with
  | none => exactly ops v targets.length
  | some k => withRest ops v k (targets.length - k - 1)

/-- Assigns a value to a target; targets are nested at most as deep as the bound. -/
def target (ops : Ops) (env : Env) : Nat → Expr → Value → Run Unit
  | 0, _, _ => throw .exhausted
  | n + 1, t, v => do
    match t with
    | .name l id =>
      Run.atLine l
      Scope.write env id v
    | .display l _ items =>
      Run.atLine l
      let vs ← distribute ops v items
      (items.zip vs).forM fun (t, v) => target ops env n t v
    | .star _ t => target ops env n t v
    | .member _ o id idLine =>
      let object ← ops.eval env o
      Run.atLine idLine
      Member.set ops object id v
    | .subscript l o i =>
      let object ← ops.eval env o
      let index ← ops.eval env i
      Run.atLine l
      Item.set ops object index v
    | _ => return ()

/-- Assigns a value to targets from the left. -/
def targets (ops : Ops) (env : Env) (ts : List Expr) (v : Value) : Run Unit :=
  ts.forM fun t => target ops env Scope.depth t v

/-- Removes what a target stands for. -/
def delete (ops : Ops) (env : Env) : Nat → Expr → Run Unit
  | 0, _ => throw .exhausted
  | n + 1, t => do
    match t with
    | .name l id =>
      Run.atLine l
      Scope.remove env id
    | .display _ _ items => items.forM (delete ops env n)
    | .member _ o id idLine =>
      let object ← ops.eval env o
      Run.atLine idLine
      Member.delete object id
    | .subscript l o i =>
      let object ← ops.eval env o
      let index ← ops.eval env i
      Run.atLine l
      Item.delete ops object index
    | _ => return ()

/-- Combines the value of a target with another one and assigns the result; the object and the index of
a target are evaluated once. -/
def augment (ops : Ops) (env : Env) (line : Nat) (t : Expr) (op : BinaryOp) (operand : Run Value) :
    Run Unit := do
  match t with
  | .name l id =>
    Run.atLine l
    let left ← Scope.read env id
    let right ← operand
    Run.atLine line
    let v ← Operator.augmented ops op left right
    Scope.write env id v
  | .member _ o id idLine =>
    let object ← ops.eval env o
    Run.atLine idLine
    let left ← ops.member object id
    let right ← operand
    Run.atLine line
    let v ← Operator.augmented ops op left right
    Run.atLine idLine
    Member.set ops object id v
  | .subscript l o i =>
    let object ← ops.eval env o
    let index ← ops.eval env i
    Run.atLine l
    let left ← Item.get ops object index
    let right ← operand
    Run.atLine line
    let v ← Operator.augmented ops op left right
    Run.atLine l
    Item.set ops object index v
  | _ => return ()

end Stencil.Script.Assign
