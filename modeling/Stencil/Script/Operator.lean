import Stencil.Script.Format.Percent

/-!
# Operators

Operators on values: arithmetic on numbers, joining and repeating sequences, merging dictionaries and
sets, and percent formats. A class may define an operator by a method, for itself on either side.
Augmented assignment changes lists, dictionaries and sets in place.
-/

namespace Stencil.Script.Operator

/-- The sign of an operator in messages. -/
def sign : BinaryOp → String
  | .add => "+"
  | .sub => "-"
  | .mul => "*"
  | .matMul => "@"
  | .div => "/"
  | .floorDiv => "//"
  | .mod => "%"
  | .pow => "**"
  | .shiftLeft => "<<"
  | .shiftRight => ">>"
  | .bitAnd => "&"
  | .bitOr => "|"
  | .bitXor => "^"

/-- The name of an operator in the names of special methods. -/
def methodStem : BinaryOp → String
  | .add => "add"
  | .sub => "sub"
  | .mul => "mul"
  | .matMul => "matmul"
  | .div => "truediv"
  | .floorDiv => "floordiv"
  | .mod => "mod"
  | .pow => "pow"
  | .shiftLeft => "lshift"
  | .shiftRight => "rshift"
  | .bitAnd => "and"
  | .bitOr => "or"
  | .bitXor => "xor"

/-- Raises the exception for operands that an operator does not apply to. -/
def unsupported {α : Type} (op : BinaryOp) (augmented : Bool) (a b : Value) : Run α := do
  let shown :=
    if augmented then sign op ++ "=" else if op = .pow then "** or pow()" else sign op
  Run.typeError (s!"unsupported operand type(s) for {shown}: " ++
    s!"'{← Run.kindName a}' and '{← Run.kindName b}'")

/-- The result of a special method, unless it leaves the question open. -/
def byMethod? (ops : Ops) (v : Value) (name : String) (arg : Value) : Run (Option Value) := do
  match ← ops.special? v name [arg] with
  | none | some .notImplemented => return none
  | some r => return some r

/-- A list repeated; a count below one gives the empty list. -/
def repeated {α : Type} (xs : List α) (count : Int) : Run (List α) := do
  let n := count.toNat
  Run.lift (checkRoom (n * xs.length))
  return (List.replicate n xs).flatten

/-- The kinds of sequences, which can be joined and repeated. -/
inductive Sequence where
  | str (s : String)
  | bytes (b : List Nat)
  | tuple (vs : List Value)
  | list (vs : List Value)

/-- The sequence a value is. -/
def sequence? (v : Value) : Run (Option Sequence) := do
  match v with
  | .str s => return some (.str s)
  | .bytes b => return some (.bytes b)
  | .tuple vs => return some (.tuple vs)
  | .ref a =>
    match ← Run.object? a with
    | some (.list xs) => return some (.list xs.toList)
    | _ => return none
  | _ => return none

/-- A sequence repeated. -/
def Sequence.repeat (s : Sequence) (count : Int) : Run Value := do
  if !(-Int.pow 2 63 ≤ count && count < Int.pow 2 63) then
    Run.failWith .overflowError "cannot fit 'int' into an index-sized integer"
  match s with
  | str s => return .str (String.ofList (← repeated s.toList count))
  | bytes b => return .bytes (← repeated b count)
  | tuple vs => return .tuple (← repeated vs count)
  | list vs => Run.newList (← repeated vs count)

/-- A sequence followed by another value, which must be a sequence of the same kind. -/
def Sequence.join (s : Sequence) (b : Value) : Run Value := do
  let refuse (what : String) : Run Value := do
    Run.typeError s!"can only concatenate {what} (not \"{← Run.kindName b}\") to {what}"
  match s, ← sequence? b with
  | str s, some (str t) => return .str (s ++ t)
  | str _, _ => refuse "str"
  | bytes s, some (bytes t) => return .bytes (s ++ t)
  | bytes _, _ => Run.typeError s!"can't concat {← Run.kindName b} to bytes"
  | tuple vs, some (tuple ws) => return .tuple (vs ++ ws)
  | tuple _, _ => refuse "tuple"
  | list vs, some (list ws) => Run.newList (vs ++ ws)
  | list _, _ => refuse "list"

/-- Repeats a sequence on either side; in place the right side only for a left one without places. -/
def multiply? (augmented : Bool) (a b : Value) : Run (Option Value) := do
  let times (s : Sequence) (n : Value) : Run (Option Value) := do
    match n.int? with
    | some i => return some (← s.repeat i)
    | none => Run.typeError s!"can't multiply sequence by non-int of type '{← Run.kindName n}'"
  match ← sequence? a, ← sequence? b with
  | some s, _ => times s b
  | none, some s => if augmented && (← Item.hasPlaces a) then return none else times s a
  | none, none => return none

/-- An operation on two sets or on the views of keys. -/
def combineSets (op : BinaryOp) (xs ys : List Value) : Option (List Value) :=
  let has (vs : List Value) (v : Value) : Bool := vs.any v.same
  match op with
  | .bitOr => some (xs ++ ys.filter fun y => !has xs y)
  | .bitAnd => some (xs.filter (has ys))
  | .sub => some (xs.filter fun x => !has ys x)
  | .bitXor => some (xs.filter (fun x => !has ys x) ++ ys.filter fun y => !has xs y)
  | _ => none

/-- The values without those that are the same as an earlier one. -/
def distinct (vs : List Value) : List Value :=
  vs.foldl (fun acc v => if acc.any v.same then acc else acc ++ [v]) []

/-- The distinct items of a value, all of which must be able to be keys. -/
def distinctItems (ops : Ops) (v : Value) : Run (List Value) := do
  let vs ← Iterate.items ops v
  vs.forM Item.checkKey
  return distinct vs

/-- Operations on dictionaries and sets. A view of keys or of entries goes with anything that has
items. -/
def merge? (ops : Ops) (op : BinaryOp) (a b : Value) : Run (Option Value) := do
  let isView (v : Value) : Bool := v matches .view .keys _ | .view .items _
  match ← Compare.setOf? a, ← Compare.setOf? b with
  | some (frozen, xs), some (_, ys) =>
    match combineSets op xs ys with
    | some vs => return some (← Run.alloc (.set frozen vs))
    | none => return none
  | _, _ =>
    if (isView a || isView b) && (combineSets op [] []).isSome then
      let xs ← distinctItems ops a
      let ys ← distinctItems ops b
      return some (← Run.alloc (.set false ((combineSets op xs ys).getD xs)))
    match op, a, b with
    | .bitOr, .ref x, .ref y =>
      match ← Run.object? x, ← Run.object? y with
      | some (.dict es), some (.dict fs) =>
        return some (← Run.newDict (fs.foldl (fun es (k, v) => es.insert k v) es))
      | _, _ => return none
    | _, _, _ => return none

/-- An operation that the kinds of the operands define. -/
def byKind? (ops : Ops) (op : BinaryOp) (augmented : Bool) (a b : Value) : Run (Option Value) := do
  match a.arithmetic? op b with
  | some r => return some (← Run.lift r)
  | none =>
    match op with
    | .add =>
      match ← sequence? a with
      | some s => return some (← s.join b)
      | none => return none
    | .mul => multiply? augmented a b
    | .mod =>
      match a with
      | .str s => return some (.str (← Percent.format ops s.toList b))
      | _ => return none
    | _ => merge? ops op a b

/-- Applies an operator. -/
def apply (ops : Ops) (op : BinaryOp) (augmented : Bool) (a b : Value) : Run Value := do
  match ← byMethod? ops a ("__" ++ methodStem op ++ "__") b with
  | some r => return r
  | none =>
    match ← byMethod? ops b ("__r" ++ methodStem op ++ "__") a with
    | some r => return r
    | none =>
      match ← byKind? ops op augmented a b with
      | some r => return r
      | none => unsupported op augmented a b

/-- Applies a binary operator. -/
def binary (ops : Ops) (op : BinaryOp) (a b : Value) : Run Value :=
  apply ops op false a b

/-- Applies an operator in place where the left operand can change. -/
def augmented (ops : Ops) (op : BinaryOp) (a b : Value) : Run Value := do
  match ← byMethod? ops a ("__i" ++ methodStem op ++ "__") b with
  | some r => return r
  | none =>
    match a with
    | .ref x =>
      match op, ← Run.object? x with
      | .add, some (.list _) =>
        let new ← Iterate.items ops b
        Run.change x fun
          | .list xs => .list (xs ++ new.toArray)
          | o => o
        return a
      | .mul, some (.list xs) =>
        match b.int? with
        | some n =>
          Run.store x (.list (← repeated xs.toList n).toArray)
          return a
        | none => apply ops op true a b
      | .bitOr, some (.dict _) =>
        Item.insertFrom ops x b
        return a
      | _, some (.set false xs) =>
        match ← Compare.setOf? b with
        | some (_, ys) =>
          match combineSets op xs ys with
          | some vs =>
            Run.store x (.set false vs)
            return a
          | none => apply ops op true a b
        | none => apply ops op true a b
      | _, _ => apply ops op true a b
    | _ => apply ops op true a b

/-- Raises the exception for an operand that a sign does not apply to. -/
def badOperand {α : Type} (sign : String) (v : Value) : Run α := do
  Run.typeError s!"bad operand type for unary {sign}: '{← Run.kindName v}'"

/-- Applies an operator with one operand. -/
def unary (ops : Ops) (op : UnaryOp) (v : Value) : Run Value := do
  match op with
  | .not => return .bool !(← ops.truthy v)
  | .negate =>
    match ← ops.special? v "__neg__" [] with
    | some r => return r
    | none =>
      match v.number? with
      | some (.int i) => return .int (-i)
      | some (.float x) => return .float (-x)
      | none => badOperand "-" v
  | .plus =>
    match ← ops.special? v "__pos__" [] with
    | some r => return r
    | none =>
      match v.number? with
      | some n => return n.toValue
      | none => badOperand "+" v
  | .invert =>
    match ← ops.special? v "__invert__" [] with
    | some r => return r
    | none =>
      match v.int? with
      | some i => return .int (-i - 1)
      | none => badOperand "~" v

/-- Compares two values. -/
def compare (ops : Ops) (op : CompareOp) (a b : Value) : Run Value := do
  match op with
  | .is => return .bool (Compare.identical a b)
  | .isNot => return .bool !(Compare.identical a b)
  | .isIn => return .bool (← Item.contains ops b a)
  | .notIn => return .bool !(← Item.contains ops b a)
  | .eq => return .bool (← ops.equal a b)
  | .ne =>
    match ← byMethod? ops a "__ne__" b with
    | some r => return r
    | none => return .bool !(← ops.equal a b)
  | _ => ops.order op a b

end Stencil.Script.Operator
