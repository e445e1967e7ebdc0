import Stencil.Data
import Stencil.Script.Interpreter

/-!
# Exchanging data with the machine

Data trees become values, with a new object for each list and each mapping, and values become data
trees: a picture of what they hold at that moment.
-/

namespace Stencil.Script

mutual

/-- A value for a data tree. -/
def Value.ofData : Data → Run Value
  | .none => return .none
  | .bool b => return .bool b
  | .int i => return .int i
  | .float x => return .float x
  | .str s => return .str s
  | .list items => do Run.newList (← Value.ofItems items)
  | .tuple items => do return .tuple (← Value.ofItems items)
  | .dict entries => do Run.newDict (← Value.ofEntries entries)
  | .callable => return .native .plainText
  | .other k plain shown => return .foreign k plain shown

/-- Values for the items of a data tree. -/
def Value.ofItems : List Data → Run (List Value)
  | [] => return []
  | d :: rest => do
    let v ← Value.ofData d
    return v :: (← Value.ofItems rest)

/-- Values for the entries of a data tree. -/
def Value.ofEntries : List (Data × Data) → Run Entries
  | [] => return []
  | (k, d) :: rest => do
    let key ← Value.ofData k
    let v ← Value.ofData d
    return (key, v) :: (← Value.ofEntries rest)

end

/-- Whether a value is a function or a method. -/
def isFunction (v : Value) : Run Bool := do
  match v with
  | .native _ | .method _ _ | .unbound _ _ | .bound _ _ => return true
  | .ref a =>
    match ← Run.object? a with
    | some (.function _) => return true
    | _ => return false
  | _ => return false

/-- A picture of a value, down to a depth. -/
def snapshot (ops : Ops) : Nat → Value → Run Data
  | 0, _ => throw .exhausted
  | n + 1, v => do
    let other : Run Data := do
      if ← isFunction v then return .callable
      else return .other (← Run.kindName v) (← ops.str v) (← ops.repr v)
    match v with
    | .none => return .none
    | .bool b => return .bool b
    | .int i => return .int i
    | .float x => return .float x
    | .str s => return .str s
    | .tuple vs => return .tuple (← vs.mapM (snapshot ops n))
    | .ref a =>
      match ← Run.object? a with
      | some (.list xs) => return .list (← xs.toList.mapM (snapshot ops n))
      | some (.dict es) =>
        return .dict (← es.mapM fun (k, w) => do
          return (← snapshot ops n k, ← snapshot ops n w))
      | _ => other
    | _ => other

end Stencil.Script
