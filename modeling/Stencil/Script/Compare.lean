import Stencil.Script.Ops

/-!
# Comparing values

Equality holds between numbers of the same value whatever their kind, and item by item between
containers of one kind. An order exists between numbers, between strings, and between sequences of one
kind, which are ordered by the first items that differ.
-/

namespace Stencil.Script.Compare

/-- Whether two values are one and the same. Immediate values of one kind are so when they are equal. -/
def identical : Value → Value → Bool
  | .bool a, .bool b => a == b
  | .int a, .int b => a == b
  | .float a, .float b => a.toBits == b.toBits
  | .bool _, .int _ | .int _, .bool _ | .bool _, .float _ | .float _, .bool _
  | .int _, .float _ | .float _, .int _ => false
  | a, b => a.same b

/-- Whether two values are one and the same or, if not, equal. -/
def sameOrEqual (ops : Ops) (x y : Value) : Run Bool :=
  if identical x y then return true else ops.equal x y

/-- Whether two lists of values are equal item by item. -/
def equalAll (ops : Ops) : List Value → List Value → Run Bool
  | [], [] => return true
  | x :: xs, y :: ys => do
    if ← sameOrEqual ops x y then equalAll ops xs ys else return false
  | _, _ => return false

/-- Whether every entry of a dictionary is an entry of another one. -/
def equalEntries (ops : Ops) (other : Entries) : Entries → Run Bool
  | [] => return true
  | (k, v) :: rest =>
    match other.find? k with
    | some w => do
      if ← sameOrEqual ops v w then equalEntries ops other rest else return false
    | none => return false

/-- What the method of a class says about equality, unless it leaves the question open. -/
def equalByMethod? (ops : Ops) (a b : Value) : Run (Option Bool) := do
  match ← ops.special? a "__eq__" [b] with
  | none | some .notImplemented => return none
  | some r => return some (← ops.truthy r)

/-- Compares two sets by inclusion. -/
def sets (op : CompareOp) (xs ys : List Value) : Bool :=
  let within (xs ys : List Value) : Bool := xs.all fun x => ys.any x.same
  match op with
  | .lt => within xs ys && xs.length < ys.length
  | .le => within xs ys
  | .gt => within ys xs && ys.length < xs.length
  | .ge => within ys xs
  | _ => within xs ys && xs.length = ys.length

/-- Whether two objects are equal. -/
def equalObjects (ops : Ops) (a b : Address) : Run Bool := do
  if a = b then return true
  match ← Run.object? a, ← Run.object? b with
  | some (.list xs), some (.list ys) =>
    if xs.size = ys.size then equalAll ops xs.toList ys.toList else return false
  | some (.dict xs), some (.dict ys) =>
    if xs.length = ys.length then equalEntries ops ys xs else return false
  | some (.set _ xs), some (.set _ ys) => return sets .eq xs ys
  | _, _ => return false

/-- The members of a set or of a view of keys or entries, and whether it is a frozen set. -/
def setOf? (v : Value) : Run (Option (Bool × List Value)) := do
  match v with
  | .view .keys a => return some (false, (← Run.entries a).map (·.1))
  | .view .items a => return some (false, (← Run.entries a).map fun (k, v) => .tuple [k, v])
  | .ref a =>
    match ← Run.object? a with
    | some (.set frozen vs) => return some (frozen, vs)
    | _ => return none
  | _ => return none

/-- Whether two values are equal. -/
def equal (ops : Ops) (a b : Value) : Run Bool := do
  match ← equalByMethod? ops a b with
  | some r => return r
  | none =>
    match ← equalByMethod? ops b a with
    | some r => return r
    | none =>
      match a, b with
      | .tuple xs, .tuple ys => equalAll ops xs ys
      | .ref x, .ref y => equalObjects ops x y
      | .view _ _, _ | _, .view _ _ =>
        match ← setOf? a, ← setOf? b with
        | some (_, xs), some (_, ys) => return sets .eq xs ys
        | _, _ => return a.same b
      | _, _ => return a.same b

/-- Whether an order between the compared things satisfies a comparison. -/
def holds (op : CompareOp) (o : Ordering) : Bool :=
  match op with
  | .lt => o == .lt
  | .le => o != .gt
  | .gt => o == .gt
  | .ge => o != .lt
  | .ne => o != .eq
  | _ => o == .eq

/-- The sign of a comparison in messages. -/
def sign : CompareOp → String
  | .eq => "=="
  | .ne => "!="
  | .lt => "<"
  | .le => "<="
  | .gt => ">"
  | .ge => ">="
  | .is => "is"
  | .isNot => "is not"
  | .isIn => "in"
  | .notIn => "not in"

/-- The comparison that says the same with the sides exchanged. -/
def swapped : CompareOp → CompareOp
  | .lt => .gt
  | .le => .ge
  | .gt => .lt
  | .ge => .le
  | op => op

/-- The special method of a comparison. -/
def methodName : CompareOp → String
  | .lt => "__lt__"
  | .le => "__le__"
  | .gt => "__gt__"
  | .ge => "__ge__"
  | .ne => "__ne__"
  | _ => "__eq__"

/-- Orders two sequences by their first items that differ, or by their lengths. -/
def sequences (ops : Ops) (op : CompareOp) : List Value → List Value → Run Value
  | x :: xs, y :: ys => do
    if ← sameOrEqual ops x y then sequences ops op xs ys else ops.order op x y
  | xs, ys => return .bool (holds op (compare xs.length ys.length))

/-- The order of two values by their kinds, if there is one. -/
def byKind? (ops : Ops) (op : CompareOp) (a b : Value) : Run (Option Value) := do
  match a, b with
  | .str s, .str t => return some (.bool (holds op (compare s t)))
  | .bytes s, .bytes t => return some (.bool (holds op (compare s t)))
  | .tuple xs, .tuple ys => return some (← sequences ops op xs ys)
  | .ref x, .ref y =>
    match ← Run.object? x, ← Run.object? y with
    | some (.list xs), some (.list ys) => return some (← sequences ops op xs.toList ys.toList)
    | some (.set _ xs), some (.set _ ys) => return some (.bool (sets op xs ys))
    | _, _ => return none
  | _, _ =>
    match a.number?, b.number? with
    | some x, some y =>
      return some (.bool ((x.compare? y).any (holds op)))
    | _, _ =>
      match ← setOf? a, ← setOf? b with
      | some (_, xs), some (_, ys) => return some (.bool (sets op xs ys))
      | _, _ => return none

/-- The result of a special method, unless it leaves the question open. -/
def byMethod? (ops : Ops) (op : CompareOp) (a b : Value) : Run (Option Value) := do
  match ← ops.special? a (methodName op) [b] with
  | none | some .notImplemented => return none
  | some r => return some r

/-- Compares two values by order. -/
def order (ops : Ops) (op : CompareOp) (a b : Value) : Run Value := do
  match ← byMethod? ops op a b with
  | some r => return r
  | none =>
    match ← byMethod? ops (swapped op) b a with
    | some r => return r
    | none =>
      match ← byKind? ops op a b with
      | some r => return r
      | none =>
        Run.typeError (s!"'{sign op}' not supported between instances of " ++
          s!"'{← Run.kindName a}' and '{← Run.kindName b}'")

/-- Whether the first of two values is less than the second. -/
def less (ops : Ops) (a b : Value) : Run Bool := do
  ops.truthy (← ops.order .lt a b)

/-- The place of a key in a sorted array between two bounds: behind the keys that it is not less
than. -/
def position (ops : Ops) (key : Value) (xs : Array (Value × Value)) : Nat → Nat → Nat → Run Nat
  | 0, low, _ => return low
  | fuel + 1, low, high => do
    if low < high then
      let mid := (low + high) / 2
      match xs[mid]? with
      | none => return low
      | some x =>
        if ← less ops key x.1 then position ops key xs fuel low mid
        else position ops key xs fuel (mid + 1) high
    else return low

/-- Inserts a value by its key into a sorted array. Most values belong at the end. -/
def insertSorted (ops : Ops) (xs : Array (Value × Value)) (x : Value × Value) :
    Run (Array (Value × Value)) := do
  match xs.back? with
  | none => return #[x]
  | some last =>
    if ← less ops x.1 last.1 then
      let i ← position ops x.1 xs xs.size 0 (xs.size - 1)
      return (xs.extract 0 i).push x ++ xs.extract i xs.size
    else return xs.push x

/-- Sorts values by their keys, keeping the order of values whose keys are equal. In a descending order
equal keys keep their order too. -/
def sort (ops : Ops) (descending : Bool) (xs : List (Value × Value)) : Run (List Value) := do
  let ordered := if descending then xs.reverse else xs
  let sorted ← ordered.foldlM (insertSorted ops) #[]
  let values := sorted.toList.map (·.2)
  return if descending then values.reverse else values

end Stencil.Script.Compare
