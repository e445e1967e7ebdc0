import Stencil.Script.Arguments
import Stencil.Script.Operator

/-!
# The methods of collections

Lists, tuples, dictionaries and sets: adding and removing items, looking them up, and ordering them.
-/

namespace Stencil.Script

namespace ListMethod

/-- The methods of lists. -/
def names : List String := [
  "append", "clear", "copy", "count", "extend", "index", "insert", "pop", "remove", "reverse", "sort"]

/-- The first place from `start` on, before `stop`, of a value in a list. -/
def place? (ops : Ops) (x : Value) : Nat → List Value → Run (Option Nat)
  | _, [] => return none
  | k, y :: rest => do
    if ← Compare.sameOrEqual ops y x then return some k else place? ops x (k + 1) rest

/-- How many items of a list are equal to a value. -/
def count (ops : Ops) (x : Value) : Nat → List Value → Run Value
  | n, [] => return .int n
  | n, y :: rest => do
    if ← Compare.sameOrEqual ops y x then count ops x (n + 1) rest
    else count ops x n rest

/-- The place of a value in the part of a sequence that optional bounds select. -/
def index? (ops : Ops) (xs : List Value) (args : List Value) : Run (Option Nat) := do
  let bound (i : Nat) (absent : Int) : Run Nat := do
    match (args[i]? : Option Value) with
    | none => return absent.toNat
    | some v =>
      match v.int? with
      | some b => return (Item.clamp 0 xs.length b xs.length).toNat
      | none => Run.typeError "slice indices must be integers or have an __index__ method"
  let start ← bound 1 0
  let stop ← bound 2 xs.length
  place? ops (args.headD .none) start ((xs.take stop).drop start)

/-- Sorts a list in place. -/
def sort (ops : Ops) (a : Address) (named : Members) : Run Unit := do
  let xs ← Run.items a
  let key := (named.find? "key").getD .none
  let descending ← match named.find? "reverse" with
    | some v => do pure (decide ((← Arguments.integer v) ≠ 0))
    | none => pure false
  let keyed ← xs.toList.mapM fun x => do
    match key with
    | .none => return (x, x)
    | f => return (← ops.call f [x] [], x)
  Run.store a (.list (← Compare.sort ops descending keyed).toArray)

/-- Removes and gives the item at an index, or the last one. -/
def pop (a : Address) (xs : Array Value) (args : List Value) : Run Value := do
  let i ← match (args[0]? : Option Value) with
    | some v => Arguments.size v
    | none => pure (-1)
  if xs.isEmpty then Run.failWith .indexError "pop from empty list"
  match Item.place? xs.size i with
  | none => Run.failWith .indexError "pop index out of range"
  | some k =>
    Run.store a (.list (xs.eraseIdxIfInBounds k))
    return xs.getD k .none

/-- Calls a method of a list. -/
def call (ops : Ops) (a : Address) (name : String) (args : List Value) (named : Members) :
    Run Value := do
  let whole := s!"list.{name}"
  let xs ← Run.items a
  match name with
  | "append" =>
    let v ← Arguments.one whole args named
    Run.change a fun
      | .list xs => .list (xs.push v)
      | o => o
    return .none
  | "clear" =>
    Arguments.noneOf whole args named
    Run.store a (.list #[])
    return .none
  | "copy" =>
    Arguments.noneOf whole args named
    Run.newList xs.toList
  | "reverse" =>
    Arguments.noneOf whole args named
    Run.store a (.list xs.reverse)
    return .none
  | "count" => count ops (← Arguments.one whole args named) 0 xs.toList
  | "extend" =>
    let v ← Arguments.one whole args named
    let new ← Iterate.items ops v
    Run.change a fun
      | .list xs => .list (xs ++ new.toArray)
      | o => o
    return .none
  | "index" =>
    Arguments.positional whole 1 3 args named
    match ← index? ops xs.toList args with
    | some k => return .int k
    | none => Run.valueError s!"{← ops.repr (args.headD .none)} is not in list"
  | "insert" =>
    Arguments.positional whole 2 2 args named
    let i ← Arguments.size (args.headD .none)
    let k := (Item.clamp 0 xs.size i xs.size).toNat
    Run.store a (.list ((xs.extract 0 k).push (args.getD 1 .none) ++ xs.extract k xs.size))
    return .none
  | "pop" =>
    Arguments.positional whole 0 1 args named
    pop a xs args
  | "remove" =>
    let v ← Arguments.one whole args named
    match ← place? ops v 0 xs.toList with
    | some k =>
      Run.store a (.list (xs.eraseIdxIfInBounds k))
      return .none
    | none => Run.valueError "list.remove(x): x not in list"
  | "sort" =>
    let _ ← Arguments.Signature.take ⟨"sort", ["key", "reverse"], 0, 0⟩ args named
    sort ops a named
    return .none
  | _ => Run.failWith .attributeError s!"'list' object has no attribute '{name}'"

end ListMethod

namespace TupleMethod

/-- The methods of tuples. -/
def names : List String := ["count", "index"]

/-- Calls a method of a tuple. -/
def call (ops : Ops) (vs : List Value) (name : String) (args : List Value) (named : Members) :
    Run Value := do
  match name with
  | "count" => ListMethod.count ops (← Arguments.one "tuple.count" args named) 0 vs
  | _ =>
    Arguments.positional "tuple.index" 1 3 args named
    match ← ListMethod.index? ops vs args with
    | some k => return .int k
    | none => Run.valueError "tuple.index(x): x not in tuple"

end TupleMethod

namespace DictMethod

/-- The methods of dictionaries. -/
def names : List String := [
  "clear", "copy", "fromkeys", "get", "items", "keys", "pop", "popitem", "setdefault", "update", "values"]

/-- Writes named values into a dictionary. -/
def insertNamed (a : Address) (named : Members) : Run Unit :=
  Run.change a fun
    | .dict es => .dict (named.foldl (fun es (k, v) => es.insert (.str k) v) es)
    | o => o

/-- Writes the arguments of a function that fills a dictionary. -/
def fill (ops : Ops) (name : String) (a : Address) (args : List Value) (named : Members) :
    Run Unit := do
  Arguments.between name 0 1 args
  args.forM (Item.insertFrom ops a)
  insertNamed a named

/-- A dictionary with one value under several keys. -/
def fromKeys (ops : Ops) (args : List Value) (named : Members) : Run Value := do
  Arguments.positional "dict.fromkeys" 1 2 args named
  let keys ← Operator.distinctItems ops (args.headD .none)
  Run.newDict (keys.map fun k => (k, args.getD 1 .none))

/-- The value under a key, if there is one. -/
def lookup? (a : Address) (key : Value) : Run (Option Value) := do
  Item.checkKey key
  return (← Run.entries a).find? key

/-- Calls a method of a dictionary. -/
def call (ops : Ops) (a : Address) (name : String) (args : List Value) (named : Members) :
    Run Value := do
  let whole := s!"dict.{name}"
  let key := args.headD .none
  let alternative := args.getD 1 .none
  match name with
  | "clear" =>
    Arguments.noneOf whole args named
    Run.store a (.dict [])
    return .none
  | "copy" =>
    Arguments.noneOf whole args named
    Run.newDict (← Run.entries a)
  | "fromkeys" => fromKeys ops args named
  | "keys" =>
    Arguments.noneOf whole args named
    return .view .keys a
  | "values" =>
    Arguments.noneOf whole args named
    return .view .values a
  | "items" =>
    Arguments.noneOf whole args named
    return .view .items a
  | "get" =>
    Arguments.positional whole 1 2 args named
    return (← lookup? a key).getD alternative
  | "setdefault" =>
    Arguments.positional whole 1 2 args named
    match ← lookup? a key with
    | some v => return v
    | none =>
      Item.setEntry a key alternative
      return alternative
  | "pop" =>
    Arguments.positional whole 1 2 args named
    match ← lookup? a key with
    | some v =>
      Run.store a (.dict ((← Run.entries a).erase key))
      return v
    | none =>
      match (args[1]? : Option Value) with
      | some v => return v
      | none => Run.fail ⟨.keyError, [key]⟩
  | "popitem" =>
    Arguments.noneOf whole args named
    let es ← Run.entries a
    match es.getLast? with
    | some (k, v) =>
      Run.store a (.dict es.dropLast)
      return .tuple [k, v]
    | none => Run.failWith .keyError "popitem(): dictionary is empty"
  | "update" =>
    fill ops name a args named
    return .none
  | _ => Run.failWith .attributeError s!"'dict' object has no attribute '{name}'"

end DictMethod

namespace SetMethod

/-- The methods of sets that do not change. -/
def readers : List String := [
  "copy", "difference", "intersection", "isdisjoint", "issubset", "issuperset",
  "symmetric_difference", "union"]

/-- The methods of sets. -/
def names : List String :=
  readers ++ ["add", "clear", "discard", "pop", "remove", "update"]

/-- Calls a method of a set. -/
def call (ops : Ops) (a : Address) (frozen : Bool) (xs : List Value) (name : String)
    (args : List Value) (named : Members) : Run Value := do
  let whole := s!"set.{name}"
  let combine (op : BinaryOp) : Run Value := do
    Arguments.noNamed whole named
    let vs ← args.foldlM (fun xs v => do
      return (Operator.combineSets op xs (← Operator.distinctItems ops v)).getD xs) xs
    Run.alloc (.set frozen vs)
  let change (vs : List Value) : Run Value := do
    Run.store a (.set frozen vs)
    return .none
  match name with
  | "copy" => Run.alloc (.set frozen xs)
  | "union" => combine .bitOr
  | "intersection" => combine .bitAnd
  | "difference" => combine .sub
  | "symmetric_difference" => combine .bitXor
  | "isdisjoint" =>
    let ys ← Operator.distinctItems ops (← Arguments.one whole args named)
    return .bool (xs.all fun x => !ys.any x.same)
  | "issubset" =>
    let ys ← Operator.distinctItems ops (← Arguments.one whole args named)
    return .bool (Compare.sets .le xs ys)
  | "issuperset" =>
    let ys ← Operator.distinctItems ops (← Arguments.one whole args named)
    return .bool (Compare.sets .ge xs ys)
  | "add" =>
    let v ← Arguments.one whole args named
    Item.checkKey v
    change (if xs.any v.same then xs else xs ++ [v])
  | "clear" => change []
  | "discard" =>
    let v ← Arguments.one whole args named
    Item.checkKey v
    change (xs.filter fun x => !x.same v)
  | "remove" =>
    let v ← Arguments.one whole args named
    Item.checkKey v
    if xs.any v.same then change (xs.filter fun x => !x.same v) else Run.fail ⟨.keyError, [v]⟩
  | "pop" =>
    match Value.arranged xs with
    | x :: _ =>
      let _ ← change (xs.filter fun y => !y.same x)
      return x
    | [] => Run.failWith .keyError "pop from an empty set"
  | _ =>
    let vs ← args.foldlM (fun xs v => do return Operator.distinct (xs ++ (← Operator.distinctItems ops v))) xs
    change vs

end SetMethod

end Stencil.Script
