import Stencil.Script.Iterate
import Stencil.Script.Show

/-!
# Items

Reading, writing and removing the items of a value by index, key or slice. Indices below zero count from
the end, and slices are cut to the length of the sequence. Lists, dictionaries and sets cannot be keys,
nor can tuples that hold them.
-/

namespace Stencil.Script.Item

mutual

/-- The name of the kind of a value that cannot be a key, if a value is or holds one. -/
def unhashable? (m : Machine) : Value → Option String
  | .slice _ _ _ => some "slice"
  | .view .keys _ => some "dict_keys"
  | .view .items _ => some "dict_items"
  | .tuple vs => anyUnhashable? m vs
  | .ref a =>
    match m.heap[a.index]? with
    | some (.list _) => some "list"
    | some (.dict _) => some "dict"
    | some (.set false _) => some "set"
    | _ => none
  | _ => none

/-- The name of the kind of the first value of a list that cannot be a key. -/
def anyUnhashable? (m : Machine) : List Value → Option String
  | [] => none
  | v :: rest =>
    match unhashable? m v with
    | some k => some k
    | none => anyUnhashable? m rest

end

/-- Raises an exception for a value that cannot be a key. -/
def checkKey (v : Value) : Run Unit := do
  match unhashable? (← get) v with
  | some k => Run.typeError s!"unhashable type: '{k}'"
  | none => return ()

/-- The place that an index means in a sequence. -/
def place? (size : Nat) (i : Int) : Option Nat :=
  let j := if i < 0 then i + size else i
  if 0 ≤ j && j < size then some j.toNat else none

/-- A bound of a slice as an integer, if it is given. -/
def bound? (v : Value) : Run (Option Int) := do
  match v with
  | .none => return none
  | _ =>
    match v.int? with
    | some i => return some i
    | none =>
      Run.typeError "slice indices must be integers or None or have an __index__ method"

/-- A bound of a slice moved into the sequence. -/
def clamp (low high i size : Int) : Int :=
  let j := if i < 0 then i + size else i
  max low (min high j)

/-- The first place, the end and the step of a slice of a sequence. -/
def sliceBounds (size : Nat) (low high step : Value) : Run (Int × Int × Int) := do
  let step := (← bound? step).getD 1
  if step = 0 then Run.valueError "slice step cannot be zero"
  let low ← bound? low
  let high ← bound? high
  let n : Int := size
  if 0 < step then
    return ((low.map fun i => clamp 0 n i n).getD 0, (high.map fun i => clamp 0 n i n).getD n, step)
  else
    return ((low.map fun i => clamp (-1) (n - 1) i n).getD (n - 1),
      (high.map fun i => clamp (-1) (n - 1) i n).getD (-1), step)

/-- The places of a slice, in its order. -/
def slicePlaces (start stop step : Int) : List Nat :=
  (List.range (rangeLength start stop step)).map fun (k : Nat) => (start + k * step).toNat

/-- The items of a sequence at the places of a slice. -/
def sliced {α : Type} (xs : Array α) (low high step : Value) : Run (List α) := do
  let (start, stop, step) ← sliceBounds xs.size low high step
  return (slicePlaces start stop step).filterMap (xs[·]?)

/-- Raises an exception for an index that does not fit into a machine word. -/
def checkIndex (i : Int) : Run Int := do
  if -Int.pow 2 63 ≤ i && i < Int.pow 2 63 then return i
  else Run.failWith .indexError "cannot fit 'int' into an index-sized integer"

/-- The item of a sequence at an index. -/
def itemAt {α : Type} (what : String) (wrongIndex : Value → Run α) (xs : Array α) (index : Value) :
    Run α := do
  match index.int? with
  | none => wrongIndex index
  | some i =>
    let i ← checkIndex i
    match (place? xs.size i).bind (xs[·]?) with
    | some x => return x
    | none => Run.failWith .indexError s!"{what} index out of range"

/-- Raises the exception for an index of a wrong kind. -/
def wrongIndex {α : Type} (what : String) (index : Value) : Run α := do
  Run.typeError s!"{what} indices must be integers or slices, not {← Run.kindName index}"

/-- The value under a key of a dictionary. -/
def entry (a : Address) (key : Value) : Run Value := do
  checkKey key
  match (← Run.entries a).find? key with
  | some v => return v
  | none => Run.fail ⟨.keyError, [key]⟩

/-- An item of a range. -/
def ofRange (start stop step : Int) (index : Value) : Run Value := do
  let size := rangeLength start stop step
  match index with
  | .slice low high by_ =>
    let (a, b, c) ← sliceBounds size low high by_
    return .range (start + a * step) (start + b * step) (step * c)
  | _ =>
    match index.int? with
    | none => wrongIndex "range" index
    | some i =>
      match place? size i with
      | some k => return .int (start + k * step)
      | none => Run.failWith .indexError "range object index out of range"

/-- The dictionary in which a context keeps its bindings. -/
def bindingsOf? (i : Instance) : Option Address :=
  match i.cls with
  | .kind (.context .text) | .kind (.context .html) =>
    match i.members.find? "_vars" with
    | some (.ref a) => some a
    | _ => none
  | _ => none

/-- Raises the exception for a value without items. -/
def noItems {α : Type} (v : Value) : Run α := do
  if ← Run.isClass v then Run.typeError s!"type '{← Run.nameOf v}' is not subscriptable"
  else Run.typeError s!"'{← Run.kindName v}' object is not subscriptable"

/-- The item of a value under an index, key or slice. -/
def get (ops : Ops) (v index : Value) : Run Value := do
  match v, index with
  | .str s, .slice low high step =>
    return .str (String.ofList (← sliced s.toList.toArray low high step))
  | .str s, _ =>
    let c ← itemAt "string" (fun i => do
      Run.typeError s!"string indices must be integers, not '{← Run.kindName i}'")
      s.toList.toArray index
    return .str c.toString
  | .bytes b, .slice low high step => return .bytes (← sliced b.toArray low high step)
  | .bytes b, _ =>
    match index.int? with
    | none => wrongIndex "byte" index
    | some i =>
      match (place? b.length i).bind (b[·]?) with
      | some n => return .int n
      | none => Run.failWith .indexError "index out of range"
  | .tuple vs, .slice low high step => return .tuple (← sliced vs.toArray low high step)
  | .tuple vs, _ => itemAt "tuple" (wrongIndex "tuple") vs.toArray index
  | .range a b c, _ => ofRange a b c index
  | .ref a, _ =>
    match ← Run.object? a with
    | some (.list xs) =>
      match index with
      | .slice low high step => Run.newList (← sliced xs low high step)
      | _ => itemAt "list" (wrongIndex "list") xs index
    | some (.dict _) => entry a index
    | some (.instance i) =>
      match bindingsOf? i with
      | some vars => entry vars index
      | none =>
        match ← ops.special? v "__getitem__" [index] with
        | some r => return r
        | none => noItems v
    | _ => noItems v
  | _, _ => noItems v

/-- Writes an entry of a dictionary. -/
def setEntry (a : Address) (key v : Value) : Run Unit := do
  checkKey key
  Run.change a fun
    | .dict es => .dict (es.insert key v)
    | o => o

/-- Writes the pair that a value holds into a dictionary; the place of the value in a row of them is for
the message. -/
def insertPair (ops : Ops) (a : Address) (place : Nat) (v : Value) : Run Nat := do
  let iterator ← Run.catching (Iterate.start ops v) fun e => do
    if ← Run.isException e .typeError then
      Run.typeError s!"cannot convert dictionary update sequence element #{place} to a sequence"
    else throw (.raised e)
  let pair ← ops.drain iterator
  match pair.toList with
  | [key, item] =>
    setEntry a key item
    return place + 1
  | vs =>
    Run.valueError
      s!"dictionary update sequence element #{place} has length {vs.length}; 2 is required"

/-- Writes the entries of a mapping, or the pairs of another value, into a dictionary. -/
def insertFrom (ops : Ops) (a : Address) (v : Value) : Run Unit := do
  let entries? : Option Address ← match v with
    | .ref b => do match ← Run.object? b with
      | some (.dict _) => pure (some b)
      | some (.instance i) => pure (bindingsOf? i)
      | _ => pure none
    | _ => pure none
  match entries? with
  | some b =>
    let fs ← Run.entries b
    Run.change a fun
      | .dict es => .dict (fs.foldl (fun es (k, v) => es.insert k v) es)
      | o => o
  | none =>
    let _ ← ops.foldItems (← Iterate.start ops v) (insertPair ops a) 0

/-- Replaces a slice of a list. -/
def setSlice (ops : Ops) (a : Address) (low high step v : Value) : Run Unit := do
  let (_, _, by_) ← sliceBounds (← Run.items a).size low high step
  let iterator ← Run.catching (Iterate.start ops v) fun e => do
    if ← Run.isException e .typeError then
      Run.typeError (if by_ = 1 then "can only assign an iterable"
        else "must assign iterable to extended slice")
    else throw (.raised e)
  let new ← ops.drain iterator
  let xs ← Run.items a
  let (start, stop, step) ← sliceBounds xs.size low high step
  if step = 1 then
    let first := start.toNat
    let last := max first stop.toNat
    Run.store a (.list (xs.extract 0 first ++ new ++ xs.extract last xs.size))
  else
    let places := slicePlaces start stop step
    if places.length ≠ new.size then
      Run.valueError (s!"attempt to assign sequence of size {new.size} to extended slice " ++
        s!"of size {places.length}")
    Run.store a (.list ((places.zip new.toList).foldl (fun xs (k, v) => xs.setIfInBounds k v) xs))

/-- Writes the item of a value under an index, key or slice. -/
def set (ops : Ops) (v index item : Value) : Run Unit := do
  let refuse : Run Unit := do
    Run.typeError s!"'{← Run.kindName v}' object does not support item assignment"
  match v with
  | .ref a =>
    match ← Run.object? a with
    | some (.list xs) =>
      match index with
      | .slice low high step => setSlice ops a low high step item
      | _ =>
        match index.int? with
        | none => wrongIndex "list" index
        | some i =>
          match place? xs.size (← checkIndex i) with
          | some k => Run.store a (.list (xs.setIfInBounds k item))
          | none => Run.failWith .indexError "list assignment index out of range"
    | some (.dict _) => setEntry a index item
    | some (.instance i) =>
      match bindingsOf? i with
      | some vars => setEntry vars (.str (← ops.str index)) item
      | none =>
        match ← ops.special? v "__setitem__" [index, item] with
        | some _ => return ()
        | none => refuse
    | _ => refuse
  | _ => refuse

/-- Whether a value belongs to a kind that may have items at places: sequences, sets, views, and the
objects of the classes of scripts. -/
def hasPlaces (v : Value) : Run Bool := do
  match v with
  | .str _ | .bytes _ | .tuple _ | .range _ _ _ | .view _ _ => return true
  | .ref a =>
    match ← Run.object? a with
    | some (.list _) | some (.dict _) | some (.set _ _) => return true
    | some (.instance i) => return (i.cls matches .ref _)
    | _ => return false
  | _ => return false

/-- Removes the item of a value under an index, key or slice. -/
def delete (ops : Ops) (v index : Value) : Run Unit := do
  let refuse : Run Unit := do
    let verb := if index.int?.isSome && (← hasPlaces v) then "doesn't" else "does not"
    Run.typeError s!"'{← Run.kindName v}' object {verb} support item deletion"
  match v with
  | .ref a =>
    match ← Run.object? a with
    | some (.list xs) =>
      match index with
      | .slice low high step =>
        let (start, stop, step) ← sliceBounds xs.size low high step
        let places := slicePlaces start stop step
        let kept := xs.toList.zipIdx.filterMap fun (x, k) => if places.contains k then none else some x
        Run.store a (.list kept.toArray)
      | _ =>
        match index.int? with
        | none => wrongIndex "list" index
        | some i =>
          match place? xs.size (← checkIndex i) with
          | some k => Run.store a (.list (xs.eraseIdxIfInBounds k))
          | none => Run.failWith .indexError "list assignment index out of range"
    | some (.dict _) =>
      let _ ← entry a index
      Run.change a fun
        | .dict es => .dict (es.erase index)
        | o => o
    | some (.instance i) =>
      match ← ops.special? v "__delitem__" [index] with
      | some _ => return ()
      | none =>
        if (bindingsOf? i).isSome || (← Run.special? v "__setitem__").isSome then
          Run.failWith .attributeError "__delitem__"
        else refuse
    | _ => refuse
  | _ => refuse

/-- Whether a list of values holds a value. -/
def member (ops : Ops) (x : Value) : List Value → Run Bool
  | [] => return false
  | y :: rest => do
    if ← Compare.sameOrEqual ops y x then return true else member ops x rest

/-- Whether a list occurs within another one. -/
def occurs {α : Type} [BEq α] (part : List α) : List α → Bool
  | [] => part.isEmpty
  | c :: r => part.isPrefixOf (c :: r) || occurs part r

/-- Whether an iterator gives a value. -/
def among (ops : Ops) (x iterator : Value) : Nat → Run Bool
  | 0 => throw .exhausted
  | n + 1 => do
    match ← ops.advance iterator .none with
    | .done _ => return false
    | .item y =>
      if ← Compare.sameOrEqual ops y x then return true else among ops x iterator n

/-- Whether a value is in another one. -/
def contains (ops : Ops) (v x : Value) : Run Bool := do
  let byIteration : Run Bool := do
    let iterator ← Run.catching (Iterate.start ops v) fun e => do
      if ← Run.isException e .typeError then
        Run.typeError s!"argument of type '{← Run.kindName v}' is not iterable"
      else throw (.raised e)
    among ops x iterator ops.steps
  match v with
  | .str s =>
    match x with
    | .str t => return occurs t.toList s.toList
    | _ =>
      Run.typeError s!"'in <string>' requires string as left operand, not {← Run.kindName x}"
  | .bytes b =>
    match x, x.int? with
    | .bytes c, _ => return occurs c b
    | _, some i =>
      if i < 0 || 255 < i then Run.valueError "byte must be in range(0, 256)"
      else return b.contains i.toNat
    | _, none => Run.typeError s!"a bytes-like object is required, not '{← Run.kindName x}'"
  | .tuple vs => member ops x vs
  | .range a b c =>
    match x.int? with
    | some i =>
      return if 0 < c then a ≤ i && i < b && (i - a) % c = 0 else b < i && i ≤ a && (a - i) % c = 0
    | none => byIteration
  | .view .keys a =>
    checkKey x
    return ((← Run.entries a).find? x).isSome
  | .ref a =>
    match ← Run.object? a with
    | some (.list xs) => member ops x xs.toList
    | some (.dict es) =>
      checkKey x
      return (es.find? x).isSome
    | some (.set _ xs) =>
      checkKey x
      return xs.any (·.same x)
    | some (.instance i) =>
      match bindingsOf? i with
      | some vars =>
        checkKey x
        return ((← Run.entries vars).find? x).isSome
      | none =>
        match ← ops.special? v "__contains__" [x] with
        | some r => ops.truthy r
        | none => byIteration
    | _ => byIteration
  | _ => byIteration

end Stencil.Script.Item
